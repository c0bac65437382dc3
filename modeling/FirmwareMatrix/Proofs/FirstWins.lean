import FirmwareMatrix.Proofs.Discovered
import FirmwareMatrix.Proofs.TreeWalk

/-! # The first declaration wins

What discovery makes of its candidates: a file that is no text is reported, a file without
declarations is passed over, a file that declares a name for the first time becomes a board, and
one that declares the name of an earlier candidate is reported. Sorting the boards for building
does not change which file won. -/

namespace FirmwareMatrix.Discovery

variable {t : Tree}

/-- What a candidate declares: nothing unless it is a text. -/
def declared? (t : Tree) (file : Path) : Option Declarations :=
  match (t.contents? file).map Text.Utf8.decode with
  | some (.ok cs) => Declarations.read (String.ofList cs)
  | _ => none

def declares (t : Tree) (name : String) (file : Path) : Bool :=
  (declared? t file).any (·.name == name)

/-- The report on a candidate that comes after the candidates `before`. -/
def remark? (t : Tree) (before : List Path) (file : Path) : Option LogEntry :=
  match (t.contents? file).map Text.Utf8.decode with
  | some (.error fault) => some (unreadableHeader file (.ofCause (.malformedText fault)))
  | _ =>
    match declared? t file with
    | some d =>
      if before.any (declares t d.name) then some (duplicateName file d.name) else none
    | none => none

/-- The board of a candidate that comes after the candidates `before`. -/
def board? (t : Tree) (before : List Path) (file : Path) : Option Board :=
  match declared? t file with
  | some d => if before.any (declares t d.name) then none else some ⟨d.name, d.target, file⟩
  | none => none

/-- The answers of `f` for each file and the files before it. -/
def afterEach {β : Type} (f : List Path → Path → Option β) (before files : List Path) : List β :=
  (files.mapIdx fun i file => f (before ++ files.take i) file).filterMap id

section AfterEach

variable {β : Type} (f : List Path → Path → Option β) (before files : List Path) (file : Path)

theorem afterEach_cons :
    afterEach f before (file :: files) =
      (f before file).toList ++ afterEach f (before ++ [file]) files := by
  simp only [afterEach, List.mapIdx_cons, List.take_zero, List.append_nil, List.take_succ_cons,
    List.append_assoc, List.singleton_append]
  cases f before file <;> rfl

variable {f files} in
theorem mem_afterEach {b : β} :
    b ∈ afterEach f [] files ↔ ∃ i, ∃ h : i < files.length, f (files.take i) files[i] = some b := by
  simp only [afterEach, List.mem_filterMap, List.mem_mapIdx, List.nil_append, id_eq]
  constructor
  · rintro ⟨_, ⟨i, h, rfl⟩, hb⟩
    exact ⟨i, h, hb⟩
  · rintro ⟨i, h, hb⟩
    exact ⟨_, ⟨i, h, rfl⟩, hb⟩

end AfterEach

theorem declares_iff {name : String} {file : Path} :
    declares t name file = true ↔ ∃ target, declared? t file = some ⟨name, target⟩ := by
  unfold declares
  rw [Option.any_eq_true]
  constructor
  · rintro ⟨⟨name', target⟩, hd, heq⟩
    obtain rfl : name' = name := by simpa using heq
    exact ⟨target, hd⟩
  · rintro ⟨target, hd⟩
    exact ⟨_, hd, by simp⟩

theorem lookup_of_contents? {file : Path} {bytes : List UInt8} (h : t.contents? file = some bytes) :
    t.lookup file.components = some (.file bytes) := by
  unfold Tree.contents? Tree.file? at h
  split at h
  · next hnode => rw [hnode, Option.some.inj h]
  · cases h

/-- The names that are taken after `file`, those of `before` being taken before it. -/
theorem any_declares_append (before : List Path) (file : Path) (name : String) :
    (before ++ [file]).any (declares t name) =
      (before.any (declares t name) || declares t name file) := by
  simp

/-- A file that declares no name leaves the names that are taken. -/
theorem contains_of_declared?_none {seen : List String} {before : List Path} {file : Path}
    (hseen : ∀ name, seen.contains name = before.any (declares t name))
    (hnone : declared? t file = none) (name : String) :
    seen.contains name = (before ++ [file]).any (declares t name) := by
  rw [any_declares_append, hseen, declares, hnone, Option.any_none, Bool.or_false]

/-- One file: its board and its report depend on the files before it only through the names that
those declare, and it takes the name that it declares itself. -/
theorem readBoards_cons {seen : List String} {before : List Path} {file : Path}
    (hseen : ∀ name, seen.contains name = before.any (declares t name))
    (hfile : (t.contents? file).isSome) (files : List Path) :
    ∃ seen', (∀ name, seen'.contains name = (before ++ [file]).any (declares t name)) ∧
      readBoards Tree.fileSystem seen (file :: files) t =
        let rest := readBoards Tree.fileSystem seen' files t
        (((board? t before file).toList ++ rest.1.1, (remark? t before file).toList ++ rest.1.2),
          rest.2) := by
  obtain ⟨bytes, hbytes⟩ := Option.isSome_iff_exists.mp hfile
  have hread : Tree.fileSystem.readText file t = (t.readText file, t) := rfl
  have hlookup := lookup_of_contents? hbytes
  -- No text, a text without declarations, a name that is taken, a new name.
  cases hdecode : Text.Utf8.decode bytes with
  | error fault =>
    have htext : t.readText file = .error (.ofCause (.malformedText fault)) := by
      simp only [Tree.readText, hlookup, hdecode]
    have hdeclared : declared? t file = none := by simp [declared?, hbytes, hdecode]
    refine ⟨seen, contains_of_declared?_none hseen hdeclared, ?_⟩
    simp only [readBoards, StateM.bind_apply, hread, htext, StateM.pure_apply]
    simp [board?, remark?, hbytes, hdecode, hdeclared]
  | ok cs =>
    have htext : t.readText file = .ok (String.ofList cs) := by
      simp only [Tree.readText, hlookup, hdecode]
    have hdeclared : declared? t file = Declarations.read (String.ofList cs) := by
      simp [declared?, hbytes, hdecode]
    have hremark : remark? t before file =
        match declared? t file with
        | some d =>
          if before.any (declares t d.name) then some (duplicateName file d.name) else none
        | none => none := by
      simp only [remark?, hbytes, Option.map_some, hdecode]
    cases hd : Declarations.read (String.ofList cs) with
    | none =>
      rw [hd] at hdeclared
      refine ⟨seen, contains_of_declared?_none hseen hdeclared, ?_⟩
      simp only [readBoards, StateM.bind_apply, hread, htext, hd, board?, hremark, hdeclared,
        Option.toList_none, List.nil_append]
      rfl
    | some d =>
      rw [hd] at hdeclared
      have hown (name : String) : declares t name file = (d.name == name) := by
        rw [declares, hdeclared, Option.any_some]
      cases htaken : before.any (declares t d.name) with
      | true =>
        refine ⟨seen, fun name => ?_, ?_⟩
        · rw [any_declares_append, hseen, hown]
          by_cases hname : d.name = name
          · rw [← hname, htaken, Bool.true_or]
          · rw [beq_eq_false_iff_ne.mpr hname, Bool.or_false]
        · simp only [readBoards, StateM.bind_apply, hread, htext, hd, hseen, htaken, if_true,
            StateM.pure_apply, board?, hremark, hdeclared]
          rfl
      | false =>
        refine ⟨d.name :: seen, fun name => ?_, ?_⟩
        · rw [any_declares_append, List.contains_cons, hseen, hown, Bool.or_comm, Bool.beq_comm]
        · simp only [readBoards, StateM.bind_apply, hread, htext, hd, hseen, htaken,
            Bool.false_eq_true, if_false, StateM.pure_apply, board?, hremark, hdeclared]
          rfl

theorem readBoards_tree {seen : List String} {before files : List Path}
    (hseen : ∀ name, seen.contains name = before.any (declares t name))
    (hfiles : ∀ file ∈ files, (t.contents? file).isSome) :
    readBoards Tree.fileSystem seen files t =
      ((afterEach (board? t) before files, afterEach (remark? t) before files), t) := by
  induction files generalizing seen before with
  | nil => rfl
  | cons file files ih =>
    obtain ⟨seen', hseen', hstep⟩ := readBoards_cons hseen (hfiles file List.mem_cons_self) files
    rw [hstep, ih hseen' fun p hp => hfiles p (List.mem_cons_of_mem _ hp), afterEach_cons,
      afterEach_cons]

theorem readBoards_all {files : List Path} (hfiles : ∀ file ∈ files, (t.contents? file).isSome) :
    readBoards Tree.fileSystem [] files t =
      ((afterEach (board? t) [] files, afterEach (remark? t) [] files), t) :=
  readBoards_tree (fun _ => rfl) hfiles

/-- The boards and the reports that a search makes of its candidates. -/
structure FirstWins (t : Tree) (candidates : List Path) (boards : List Board)
    (log : List LogEntry) : Prop where
  /-- By target and name, no two alike. -/
  ascending : boards.Pairwise Board.Before
  declared : ∀ b ∈ boards, b.source ∈ candidates ∧ declared? t b.source = some ⟨b.name, b.target⟩
  /-- A name that is declared has one board, from the first candidate that declares it. -/
  first : ∀ name, (∃ file ∈ candidates, declares t name file) →
    ∃ b, boards.filter (·.name == name) = [b] ∧
      ∀ file ∈ candidates, declares t name file → (compare b.source file).isLE
  reported : log = afterEach (remark? t) [] candidates

theorem filter_name_eq {boards : List Board} {b : Board} (hb : b ∈ boards)
    (hnames : boards.Pairwise fun b b' => b.name ≠ b'.name) :
    boards.filter (·.name == b.name) = [b] := by
  induction boards with
  | nil => cases hb
  | cons a boards ih =>
    obtain ⟨hhead, htail⟩ := List.pairwise_cons.mp hnames
    rcases List.mem_cons.mp hb with rfl | hmem
    · have hnone : boards.filter (·.name == b.name) = [] := by
        rw [List.filter_eq_nil_iff]
        intro b' hb' he
        exact hhead b' hb' (beq_iff_eq.mp he).symm
      rw [List.filter_cons, if_pos (beq_self_eq_true _), hnone]
    · have hne : ¬ (a.name == b.name) = true := fun he => hhead b hmem (beq_iff_eq.mp he)
      rw [List.filter_cons, if_neg hne, ih hmem htail]

theorem board?_eq_some {before : List Path} {file : Path} {b : Board} :
    board? t before file = some b ↔
      declared? t file = some ⟨b.name, b.target⟩ ∧ b.source = file ∧
        before.any (declares t b.name) = false := by
  obtain ⟨name, target, source⟩ := b
  unfold board?
  cases declared? t file with
  | none => simp
  | some d =>
    obtain ⟨name', target'⟩ := d
    grind

/-- The first candidate that declares a name has the board of that name. -/
theorem exists_first {candidates : List Path} {name : String}
    (h : ∃ file ∈ candidates, declares t name file = true) :
    ∃ i, ∃ hi : i < candidates.length, ∃ target,
      board? t (candidates.take i) candidates[i] = some ⟨name, target, candidates[i]⟩ ∧
        ∀ j, ∀ hj : j < candidates.length, declares t name candidates[j] = true → i ≤ j := by
  have hi : candidates.findIdx (declares t name) < candidates.length := List.findIdx_lt_length.mpr h
  have hearlier {j : Nat} (hj : j < candidates.findIdx (declares t name)) :
      declares t name candidates[j] = false := List.not_of_lt_findIdx hj
  obtain ⟨target, htarget⟩ := declares_iff.mp (List.findIdx_getElem (w := hi))
  refine ⟨_, hi, target, board?_eq_some.mpr ⟨htarget, rfl, ?_⟩, fun j hj hd => ?_⟩
  · rw [List.any_eq_false]
    intro file hfile
    obtain ⟨j, hj, rfl⟩ := List.mem_take_iff_getElem.mp hfile
    simpa using hearlier (by omega)
  · by_contra hlt
    rw [hearlier (by omega)] at hd
    cases hd

theorem firstWins_of_ascending {candidates : List Path}
    (hascending : candidates.Pairwise fun p q => (compare p q).isLE = true)
    (hfiles : ∀ file ∈ candidates, (t.contents? file).isSome) :
    FirstWins t candidates (Board.sort (afterEach (board? t) [] candidates))
      (afterEach (remark? t) [] candidates) := by
  have hmem (b : Board) : b ∈ Board.sort (afterEach (board? t) [] candidates) ↔
      b ∈ afterEach (board? t) [] candidates := List.mem_mergeSort
  have hfresh := readBoards_fresh Tree.fileSystem [] candidates t
  rw [readBoards_all hfiles] at hfresh
  refine ⟨Board.sort_before hfresh.different, fun b hb => ?_, fun name h => ?_, rfl⟩
  · obtain ⟨i, hi, hboard⟩ := mem_afterEach.mp ((hmem b).mp hb)
    obtain ⟨hdeclared, hsource, -⟩ := board?_eq_some.mp hboard
    rw [hsource]
    exact ⟨List.getElem_mem hi, hdeclared⟩
  · obtain ⟨i, hi, target, hboard, hleast⟩ := exists_first h
    have hb : ⟨name, target, candidates[i]⟩ ∈ Board.sort (afterEach (board? t) [] candidates) :=
      (hmem _).mpr (mem_afterEach.mpr ⟨i, hi, hboard⟩)
    refine ⟨_, filter_name_eq hb hfresh.sort.different, fun file hfile hdeclares => ?_⟩
    obtain ⟨j, hj, rfl⟩ := List.mem_iff_getElem.mp hfile
    exact first_le_of_ascending hascending (hleast j hj hdeclares) hj

/-! ## Searches -/

variable {compiler : Glob.Compiler} {root : Path} {pattern : String}

theorem search_missingRoot (h : t.names? root.components = none) :
    search compiler Tree.fileSystem root pattern t = ((.error (.missingRoot root), []), t) := by
  have hdir : Tree.fileSystem.isDirectory root t = (false, t) := by
    show ((t.names? root.components).isSome, t) = _
    rw [h, Option.isSome_none]
  simp only [search, StateM.bind_apply, hdir]
  rfl

theorem search_unreadable (hroot : (t.names? root.components).isSome) {e : Error}
    (h : compile compiler pattern = .error e) :
    search compiler Tree.fileSystem root pattern t = ((.error e, []), t) := by
  have hdir : Tree.fileSystem.isDirectory root t = (true, t) := congrArg (·, t) hroot
  simp only [search, StateM.bind_apply, hdir, h]
  rfl

theorem search_candidates (hroot : (t.names? root.components).isSome) {glob : Glob}
    (h : compile compiler pattern = .ok glob) :
    ∃ candidates boards log,
      collect Tree.fileSystem root (compiler.accepts glob) t = (.ok ⟨candidates, []⟩, t) ∧
        Candidates t root (compiler.accepts glob) candidates ∧
          search compiler Tree.fileSystem root pattern t = ((.ok boards, log), t) ∧
            FirstWins t candidates boards log := by
  obtain ⟨candidates, hcollect, hcandidates⟩ := collect_tree hroot (compiler.accepts glob)
  have hfiles := fun file h => (hcandidates.findable file h).isFile
  have hdir : Tree.fileSystem.isDirectory root t = (true, t) := congrArg (·, t) hroot
  refine ⟨candidates, _, _, hcollect, hcandidates, ?_,
    firstWins_of_ascending hcandidates.ascending hfiles⟩
  simp only [search, StateM.bind_apply, hdir, Bool.not_true, Bool.false_eq_true, if_false, h,
    hcollect, readBoards_all hfiles]
  rfl

/-- The error for a pattern that cannot be read. -/
def patternError (pattern : String) (fault : Glob.Fault) : Error :=
  .failed ((Failure.ofCause (.badPattern pattern fault)).during (.readingPattern pattern))

theorem patternError_inj {fault fault' : Glob.Fault} :
    patternError pattern fault = patternError pattern fault' ↔ fault = fault' := by
  constructor
  · intro h
    simp only [patternError, Failure.during, Failure.ofCause, Error.failed.injEq,
      Failure.mk.injEq, Cause.badPattern.injEq] at h
    exact h.2.2
  · rintro rfl
    rfl

theorem patternError_ne_missingRoot {fault : Glob.Fault} :
    patternError pattern fault ≠ .missingRoot root := nofun

theorem patternError_ne_tooDeep {fault : Glob.Fault} : patternError pattern fault ≠ .tooDeep :=
  nofun

theorem compile_error {fault : Glob.Fault} (h : Glob.read pattern = .error fault) :
    compile compiler pattern = .error (patternError pattern fault) := by
  rw [compile, h]
  rfl

theorem compile_ok {glob : Glob} (h : Glob.read pattern = .ok glob)
    (hcompiles : compiler.compiles glob = true) : compile compiler pattern = .ok glob := by
  simp only [compile, h, hcompiles, if_true]

theorem compile_tooDeep {glob : Glob} (h : Glob.read pattern = .ok glob)
    (hcompiles : compiler.compiles glob = false) : compile compiler pattern = .error .tooDeep := by
  simp only [compile, h, hcompiles, Bool.false_eq_true, if_false]

/-- What a search answers, whichever patterns its compiler makes matchers of: without a directory at
the root that it is missing, else, for a pattern that cannot be read, that error, else what its
candidates declare, the first of each name winning. A pattern that can be read and that the compiler
makes no matcher of ends the program instead. -/
theorem discover_first_wins (compiler : Glob.Compiler) (t : Tree) (root : Path)
    (pattern : String) :
    let answer := search compiler Tree.fileSystem root pattern t
    answer.2 = t ∧
      (answer.1.1 = .error (.missingRoot root) ↔ t.names? root.components = none) ∧
      (∀ fault, answer.1.1 = .error (patternError pattern fault) ↔
        (t.names? root.components).isSome ∧ Glob.read pattern = .error fault) ∧
      (answer.1.1 = .error .tooDeep ↔ (t.names? root.components).isSome ∧
        ∃ glob, Glob.read pattern = .ok glob ∧ compiler.compiles glob = false) ∧
      ∀ glob, (t.names? root.components).isSome → Glob.read pattern = .ok glob →
        compiler.compiles glob = true → ∃ candidates boards log,
          collect Tree.fileSystem root (compiler.accepts glob) t = (.ok ⟨candidates, []⟩, t) ∧
            answer.1 = (.ok boards, log) ∧ FirstWins t candidates boards log := by
  intro answer
  cases hnames : t.names? root.components with
  | none =>
    rw [show answer = ((.error (.missingRoot root), []), t) from search_missingRoot hnames]
    simp [patternError_ne_missingRoot.symm]
  | some names =>
    have hroot : (t.names? root.components).isSome := by rw [hnames, Option.isSome_some]
    cases hread : Glob.read pattern with
    | error fault =>
      rw [show answer = ((.error (patternError pattern fault), []), t) from
        search_unreadable hroot (compile_error hread)]
      simp [patternError_ne_missingRoot, patternError_ne_tooDeep, patternError_inj]
    | ok glob =>
      cases hcompiles : compiler.compiles glob with
      | false =>
        rw [show answer = ((.error .tooDeep, []), t) from
          search_unreadable hroot (compile_tooDeep hread hcompiles)]
        refine ⟨rfl, by simp, by simp [patternError_ne_tooDeep.symm], ?_, fun glob' _ hglob' h => ?_⟩
        · simpa using hcompiles
        · obtain rfl : glob = glob' := Except.ok.inj hglob'
          cases hcompiles.symm.trans h
      | true =>
        obtain ⟨candidates, boards, log, hcollect, -, hanswer, hwins⟩ :=
          search_candidates hroot (compile_ok hread hcompiles)
        rw [show answer = ((.ok boards, log), t) from hanswer]
        refine ⟨rfl, by simp, by simp, ?_, fun glob' _ hglob' _ => ?_⟩
        · simpa using hcompiles
        · obtain rfl : glob = glob' := Except.ok.inj hglob'
          exact ⟨candidates, boards, log, hcollect, rfl, hwins⟩

/-- A file name in two hundred and sixty braces. -/
def nestedPattern : List Char :=
  List.replicate 260 '\x7b' ++ "hw_a.h".toList ++ List.replicate 260 '\x7d'

/-- One header below the usual root. -/
def loneHeader : Tree :=
  Tree.empty.addFile (Path.mk "main/hwconf/hw_a.h").components
    (Text.Utf8.encode (Declarations.header ⟨"A", "esp32c3"⟩).toList)

theorem read_ofList {cs : List Char} {r : Glob.Reader}
    (h : Glob.Reader.readAll cs.length ⟨[], [], none⟩ cs = .ok r) (hgroups : r.groups.isEmpty) :
    Glob.read (String.ofList cs) = .ok ⟨String.ofList cs, r.current⟩ := by
  simp only [Glob.read, String.toList_ofList, h, hgroups, if_true]

theorem read_nestedPattern :
    ∃ glob, Glob.read (String.ofList nestedPattern) = .ok glob ∧ glob.depth = 262 := by
  have hlength : nestedPattern.length = 526 := by decide +kernel
  have hread : (Glob.Reader.readAll 526 ⟨[], [], none⟩ nestedPattern).toOption.map
      (fun r => (r.groups.isEmpty, Glob.depth ⟨String.ofList nestedPattern, r.current⟩)) =
        some (true, 262) := by
    decide +kernel
  rw [← hlength] at hread
  cases hr : Glob.Reader.readAll nestedPattern.length ⟨[], [], none⟩ nestedPattern with
  | error fault =>
    rw [hr] at hread
    cases hread
  | ok r =>
    rw [hr] at hread
    obtain ⟨hgroups, hdepth⟩ := Prod.mk.inj (Option.some.inj hread)
    exact ⟨_, read_ofList hr hgroups, hdepth⟩

/-- A pattern that reads well ends the program, though the root is there. -/
theorem nested_ends_program :
    (loneHeader.names? (Path.mk "main/hwconf").components).isSome ∧
      (∃ glob, Glob.read (String.ofList nestedPattern) = .ok glob) ∧
      (discover Tree.fileSystem ⟨"main/hwconf"⟩ (String.ofList nestedPattern) loneHeader).1.1 =
        .error .tooDeep := by
  have hroot : (loneHeader.names? (Path.mk "main/hwconf").components).isSome := by decide +kernel
  obtain ⟨glob, hread, hdepth⟩ := read_nestedPattern
  have hdeep : Glob.Compiler.nesting.compiles glob = false := by
    simp only [Glob.Compiler.nesting, hdepth]
    rfl
  rw [discover, search_unreadable hroot (compile_tooDeep hread hdeep)]
  exact ⟨hroot, ⟨glob, hread⟩, rfl⟩

end FirmwareMatrix.Discovery
