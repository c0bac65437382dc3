import FirmwareMatrix.Proofs.FilesFound
import FirmwareMatrix.Proofs.HeaderPattern
import FirmwareMatrix.Proofs.Utf8Infix
import FirmwareMatrix.Settings

/-! # What the usual header pattern selects

The pattern is matched against all the names that lead from the root to a file, and its star runs
over separators too. So a file is selected whose own name ends with `.h`, if its own name or that
of a directory on the way starts with `hw_`; what follows a backslash in a name counts as a name
there. Only where nothing on the way starts like a header does the file's own name alone decide. -/

namespace FirmwareMatrix

/-! ## What the tokens leave -/

namespace Glob

variable {c : Char} {all : List (List UInt8)} {rest bs : List UInt8}

theorem mem_rests_literal :
    rest ∈ Token.rests (.literal c) all ↔ String.utf8EncodeChar c ++ rest ∈ all := by
  rw [Token.rests, List.mem_filterMap]
  constructor
  · rintro ⟨bs, hbs, hafter⟩
    unfold afterBytes at hafter
    split at hafter
    · next hprefix =>
      obtain ⟨rest', rfl⟩ := List.isPrefixOf_iff_prefix.mp hprefix
      rw [List.drop_left] at hafter
      exact Option.some.inj hafter ▸ hbs
    · cases hafter
  · exact fun h => ⟨_, h, by simp [afterBytes]⟩

theorem mem_suffixes_iff : rest ∈ suffixes bs ↔ rest <:+ bs := by
  induction bs with
  | nil => simp [suffixes]
  | cons b bs ih => simp [suffixes, ih, List.suffix_cons_iff]

theorem mem_rests_star : rest ∈ Token.rests .star all ↔ ∃ before, before ++ rest ∈ all := by
  rw [Token.rests, List.mem_flatMap]
  constructor
  · rintro ⟨bs, hbs, hrest⟩
    obtain ⟨before, rfl⟩ := mem_suffixes_iff.mp hrest
    exact ⟨before, hbs⟩
  · rintro ⟨before, h⟩
    exact ⟨_, h, mem_suffixes before rest⟩

theorem mem_afterSlashes : rest ∈ afterSlashes bs ↔ ∃ before, bs = before ++ slash :: rest := by
  induction bs with
  | nil => simp [afterSlashes]
  | cons b bs ih =>
    have hcons : (∃ before, b :: bs = before ++ slash :: rest) ↔
        (b = slash ∧ rest = bs) ∨ ∃ before, bs = before ++ slash :: rest := by
      constructor
      · rintro ⟨_ | ⟨b', before⟩, h⟩
        · obtain ⟨rfl, rfl⟩ := List.cons.inj h
          exact .inl ⟨rfl, rfl⟩
        · exact .inr ⟨before, (List.cons.inj h).2⟩
      · rintro (⟨rfl, rfl⟩ | ⟨before, rfl⟩)
        · exact ⟨[], rfl⟩
        · exact ⟨b :: before, rfl⟩
    rw [hcons, ← ih, afterSlashes]
    by_cases hb : b = slash <;> simp [hb]

theorem mem_rests_leading :
    rest ∈ Token.rests .leading all ↔ rest ∈ all ∨ ∃ before, before ++ slash :: rest ∈ all := by
  rw [Token.rests, List.mem_append, List.mem_flatMap]
  refine or_congr Iff.rfl ⟨?_, ?_⟩
  · rintro ⟨bs, hbs, hrest⟩
    obtain ⟨before, rfl⟩ := mem_afterSlashes.mp hrest
    exact ⟨before, hbs⟩
  · rintro ⟨before, h⟩
    exact ⟨_, h, mem_afterSlashes.mpr ⟨before, rfl⟩⟩

/-- In bytes, the pattern covers what ends like a header and has a header's start at its own start
or after a separator. -/
theorem headers_matchesBytes :
    headers.matchesBytes bs = true ↔
      ∃ before between, bs = before ++ (Text.Utf8.encode "hw_".toList ++ between ++
          Text.Utf8.encode ".h".toList) ∧
        (before = [] ∨ ∃ ds, before = ds ++ [slash]) := by
  have hcontains : headers.matchesBytes bs = true ↔ [] ∈ restsOfSequence headers.tokens [bs] := by
    simp [matchesBytes, headers]
  rw [hcontains]
  simp only [headers, restsOfSequence, mem_distinct, mem_rests_literal, mem_rests_star,
    mem_rests_leading, List.mem_singleton]
  constructor
  · rintro ⟨between, h | ⟨before, h⟩⟩
    · exact ⟨[], between, by simpa [Text.Utf8.encode] using h.symm, .inl rfl⟩
    · exact ⟨before ++ [slash], between, by simpa [Text.Utf8.encode] using h.symm,
        .inr ⟨before, rfl⟩⟩
  · rintro ⟨before, between, rfl, rfl | ⟨ds, rfl⟩⟩
    · exact ⟨between, .inl (by simp [Text.Utf8.encode])⟩
    · exact ⟨between, .inr ⟨ds, by simp [Text.Utf8.encode]⟩⟩

theorem headers_matches_iff {cs : List Char} :
    headers.matches (String.ofList cs) = true ↔
      ∃ before between, cs = before ++ ("hw_".toList ++ (between ++ ".h".toList)) ∧
        (before = [] ∨ ∃ ds, before = ds ++ ['/']) := by
  rw [Glob.matches, String.toList_ofList, headers_matchesBytes]
  constructor
  · rintro ⟨before, between, h, hbefore⟩
    rw [List.append_assoc] at h
    obtain ⟨before, rest, rfl, rfl, hrest⟩ :=
      Text.Utf8.exists_of_encode_eq_infix (by decide) (by decide) h
    rw [← List.append_nil (Text.Utf8.encode ".h".toList)] at hrest
    obtain ⟨between, after, rfl, -, hafter⟩ :=
      Text.Utf8.exists_of_encode_eq_infix (by decide) (by decide) hrest
    obtain rfl := Text.Utf8.eq_nil_of_encode_eq_nil hafter
    refine ⟨before, between, by rw [List.append_nil], ?_⟩
    rcases hbefore with hnil | ⟨ds, hds⟩
    · exact .inl (Text.Utf8.eq_nil_of_encode_eq_nil hnil)
    · have hslash : Text.Utf8.encode before = ds ++ (Text.Utf8.encode ['/'] ++ []) := hds
      obtain ⟨ds, after, rfl, -, hafter⟩ :=
        Text.Utf8.exists_of_encode_eq_infix (by decide) (by decide) hslash
      obtain rfl := Text.Utf8.eq_nil_of_encode_eq_nil hafter
      exact .inr ⟨ds, rfl⟩
  · rintro ⟨before, between, rfl, hbefore⟩
    refine ⟨Text.Utf8.encode before, Text.Utf8.encode between, ?_, ?_⟩
    · simp only [Text.Utf8.encode_append, List.append_assoc]
    · rcases hbefore with rfl | ⟨ds, rfl⟩
      · exact .inl rfl
      · exact .inr ⟨Text.Utf8.encode ds, Text.Utf8.encode_append ds ['/']⟩

end Glob

/-! ## Pieces of texts -/

namespace Text

variable {sep : Char} {cs w piece : List Char}

/-- What precedes a piece ends with a separator, and nothing precedes the first. -/
theorem splitAt_pieces (sep : Char) (cs : List Char) :
    ∃ first rest, splitAt sep cs = first :: rest ∧ first <+: cs ∧
      ∀ piece ∈ rest, ∃ before after, cs = before ++ sep :: (piece ++ after) := by
  induction cs with
  | nil => exact ⟨[], [], rfl, List.prefix_rfl, by simp⟩
  | cons c cs ih =>
    obtain ⟨first, rest, hsplit, ⟨after, hfirst⟩, hrest⟩ := ih
    have hrest' : ∀ piece ∈ rest, ∃ before after, c :: cs = before ++ sep :: (piece ++ after) := by
      intro piece hpiece
      obtain ⟨before, after, rfl⟩ := hrest piece hpiece
      exact ⟨c :: before, after, rfl⟩
    by_cases hc : c = sep
    · refine ⟨[], first :: rest, by simp [splitAt, hc, hsplit], List.nil_prefix, ?_⟩
      exact List.forall_mem_cons.mpr ⟨⟨[], after, by rw [hc, hfirst]; rfl⟩, hrest'⟩
    · exact ⟨c :: first, rest, by simp [splitAt, hc, hsplit], ⟨after, by rw [← hfirst]; rfl⟩, hrest'⟩

/-- A text without separators starts a piece where it stands at the start or after a separator. -/
theorem exists_mem_splitAt_iff (hw : sep ∉ w) :
    (∃ piece ∈ splitAt sep cs, w <+: piece) ↔
      ∃ before after, cs = before ++ (w ++ after) ∧
        (before = [] ∨ ∃ ds, before = ds ++ [sep]) := by
  constructor
  · rintro ⟨piece, hpiece, after, rfl⟩
    obtain ⟨first, rest, hsplit, ⟨after', hfirst⟩, hrest⟩ := splitAt_pieces sep cs
    rw [hsplit] at hpiece
    rcases List.mem_cons.mp hpiece with rfl | hpiece
    · exact ⟨[], after ++ after', by rw [← hfirst]; simp, .inl rfl⟩
    · obtain ⟨before, after', rfl⟩ := hrest _ hpiece
      exact ⟨before ++ [sep], after ++ after', by simp, .inr ⟨before, rfl⟩⟩
  · rintro ⟨before, after, rfl, hbefore⟩
    obtain ⟨first, rest, hsplit, -, -⟩ := splitAt_pieces sep after
    have hfirst : (w ++ first) ∈ splitAt sep (w ++ after) := by
      rw [splitAt_append_of_not_mem hw hsplit]
      exact List.mem_cons_self
    refine ⟨w ++ first, ?_, List.prefix_append _ _⟩
    rcases hbefore with rfl | ⟨ds, rfl⟩
    · exact hfirst
    · rw [List.append_assoc, List.singleton_append, splitAt_append_sep]
      exact List.mem_append_right _ hfirst

/-- An ending of two characters lies in the last part of a text, if the part before it does not end
with the first of them. -/
theorem suffix_append_iff {a b : Char} {xs ys : List Char} (hys : ys ≠ [])
    (hxs : xs.getLast? ≠ some a) : [a, b] <:+ xs ++ ys ↔ [a, b] <:+ ys := by
  obtain ⟨y, ys', hy⟩ := List.exists_cons_of_ne_nil (List.reverse_ne_nil_iff.mpr hys)
  rw [← List.head?_reverse] at hxs
  have hends (zs : List Char) : [a, b] <:+ zs ↔ [b, a] <+: zs.reverse := List.reverse_prefix.symm
  rw [hends, hends, List.reverse_append, hy]
  cases ys' with
  | cons y' ys' => simp
  | nil =>
    cases hx : xs.reverse with
    | nil => simp
    | cons x xs' =>
      rw [hx, List.head?_cons] at hxs
      have hxa : ¬ a = x := fun h => hxs (congrArg some h.symm)
      simp [hxa]

end Text

namespace Discovery

variable {names : List String} {last : String}

/-- Backslashes read as separators. -/
def slashed (cs : List Char) : List Char := cs.map fun c => if c = '\\' then '/' else c

theorem splitAt_slashed {cs : List Char} (h : '/' ∉ cs) :
    Text.splitAt '/' (slashed cs) = Text.splitAt '\\' cs := by
  induction cs with
  | nil => rfl
  | cons c cs ih =>
    obtain ⟨hc, hcs⟩ := not_or.mp (mt List.mem_cons.mpr h)
    have ih : Text.splitAt '/' (cs.map fun c => if c = '\\' then '/' else c) =
        Text.splitAt '\\' cs := ih hcs
    by_cases hback : c = '\\'
    · simp [slashed, Text.splitAt, hback, ih]
    · simp [slashed, Text.splitAt, hback, Ne.symm hc, ih]

theorem toList_seen_append (hnames : names ≠ []) (last : String) :
    (seen (names ++ [last])).toList = (seen names).toList ++ ['/'] ++ slashed last.toList := by
  simp [seen, slashed, String.intercalate_append_of_ne_nil hnames]

theorem toList_seen_singleton (d : String) : (seen [d]).toList = slashed d.toList := by
  simp [seen, slashed]

/-- The pieces of what is seen are those of the names on the way. -/
theorem splitAt_seen (hne : names ≠ []) (h : ∀ d ∈ names, '/' ∉ d.toList) :
    Text.splitAt '/' (seen names).toList = names.flatMap fun d => Text.splitAt '\\' d.toList := by
  induction names using List.reverseRecOn with
  | nil => exact absurd rfl hne
  | append_singleton names last ih =>
    have hlast : Text.splitAt '/' (slashed last.toList) = Text.splitAt '\\' last.toList :=
      splitAt_slashed (h last (by simp))
    by_cases hnil : names = []
    · subst hnil
      simp [toList_seen_singleton, hlast]
    · have ih := ih hnil fun d hd => h d (List.mem_append_left _ hd)
      rw [toList_seen_append hnil, List.append_assoc, List.singleton_append,
        Text.splitAt_append_sep, ih, hlast]
      simp

theorem suffix_header_append {xs ys : List Char} (hys : ys ≠ []) (hxs : xs.getLast? ≠ some '.') :
    ".h".toList <:+ xs ++ ys ↔ ".h".toList <:+ ys :=
  Text.suffix_append_iff hys hxs

theorem suffix_slashed_iff (cs : List Char) :
    ".h".toList <:+ slashed cs ↔ ".h".toList <:+ cs := by
  constructor
  · rintro ⟨before, h⟩
    obtain ⟨xs, ys, rfl, -, hys⟩ := List.map_eq_append_iff.mp h.symm
    obtain ⟨x, y, rfl⟩ : ∃ x y, ys = [x, y] := List.length_eq_two.mp (by
      simpa using congrArg List.length hys)
    have hkeeps {c d : Char} (hd : d ≠ '/') (h : (if c = '\\' then '/' else c) = d) : c = d := by
      split at h
      · exact absurd h.symm hd
      · exact h
    obtain ⟨hx, hy⟩ : (if x = '\\' then '/' else x) = '.' ∧ (if y = '\\' then '/' else y) = 'h' := by
      simpa using hys
    obtain rfl := hkeeps (by decide) hx
    obtain rfl := hkeeps (by decide) hy
    exact List.suffix_append _ _
  · intro h
    exact h.map fun c => if c = '\\' then '/' else c

/-- What is seen ends like a header exactly if the last name does. -/
theorem suffix_seen_iff (hlast : last ≠ "") :
    ".h".toList <:+ (seen (names ++ [last])).toList ↔ ".h".toList <:+ last.toList := by
  have hne : slashed last.toList ≠ [] := by
    simp [slashed, hlast]
  rw [← suffix_slashed_iff last.toList]
  by_cases hnil : names = []
  · subst hnil
    rw [List.nil_append, toList_seen_singleton]
  · have hdot : ((seen names).toList ++ ['/']).getLast? ≠ some '.' := by simp
    rw [toList_seen_append hnil]
    exact suffix_header_append hne hdot

/-- What the pattern accepts ends like a header and has a piece that starts like one. -/
theorem headers_matches_iff_pieces (text : String) :
    Glob.headers.matches text = true ↔
      ".h".toList <:+ text.toList ∧
        ∃ piece ∈ Text.splitAt '/' text.toList, "hw_".toList <+: piece := by
  rw [← String.ofList_toList (s := text), Glob.headers_matches_iff, String.ofList_toList,
    Text.exists_mem_splitAt_iff (by decide)]
  constructor
  · rintro ⟨before, between, heq, hbefore⟩
    refine ⟨?_, before, _, heq, hbefore⟩
    rw [heq, ← List.append_assoc, ← List.append_assoc]
    exact List.suffix_append _ _
  · rintro ⟨hend, before, after, heq, hbefore⟩
    have hlast : (before ++ "hw_".toList).getLast? = some '_' := by simp
    rw [heq, ← List.append_assoc] at hend
    have hafter : after ≠ [] := by
      rintro rfl
      obtain ⟨start, hstart⟩ := hend
      have hlast' := congrArg List.getLast? hstart
      rw [List.append_nil, hlast] at hlast'
      simp at hlast'
    have hdot : (before ++ "hw_".toList).getLast? ≠ some '.' := by simp
    obtain ⟨between, rfl⟩ := (suffix_header_append hafter hdot).mp hend
    exact ⟨before, between, heq, hbefore⟩

/-- A name with a piece that starts like a header, a backslash counting as a separator. -/
def StartsLikeHeader (d : String) : Prop :=
  ∃ piece ∈ Text.splitAt '\\' d.toList, "hw_".toList <+: piece

instance : DecidablePred StartsLikeHeader := fun d =>
  inferInstanceAs (Decidable (∃ piece ∈ Text.splitAt '\\' d.toList, _))

/-- The pattern goes by all names on the way. -/
theorem headers_matches_seen (h : ∀ d ∈ names ++ [last], Path.IsName d) :
    Glob.headers.matches (seen (names ++ [last])) = true ↔
      ".h".toList <:+ last.toList ∧ ∃ d ∈ names ++ [last], StartsLikeHeader d := by
  rw [headers_matches_iff_pieces, suffix_seen_iff (h last (by simp)).1,
    splitAt_seen (by simp) fun d hd => (h d hd).2.2.2]
  simp only [List.mem_flatMap, StartsLikeHeader]
  constructor
  · rintro ⟨hend, piece, ⟨d, hd, hpiece⟩, hstart⟩
    exact ⟨hend, d, hd, piece, hpiece, hstart⟩
  · rintro ⟨hend, d, hd, piece, hpiece, hstart⟩
    exact ⟨hend, piece, ⟨d, hd, hpiece⟩, hstart⟩

theorem eq_headerName_iff {d : String} :
    (∃ stem, d = headerName stem) ↔ "hw_".toList <+: d.toList ∧ ".h".toList <:+ d.toList := by
  constructor
  · rintro ⟨stem, rfl⟩
    rw [headerName, String.toList_append, String.toList_append]
    exact ⟨⟨stem.toList ++ ".h".toList, by simp⟩, List.suffix_append _ _⟩
  · rintro ⟨⟨after, hafter⟩, hend⟩
    rw [← hafter] at hend
    have hne : after ≠ [] := by
      rintro rfl
      exact absurd hend (by decide)
    obtain ⟨stem, rfl⟩ := (suffix_header_append hne (by decide)).mp hend
    refine ⟨String.ofList stem, String.toList_inj.mp ?_⟩
    rw [← hafter, headerName, String.toList_append, String.toList_append, String.toList_ofList]
    simp

theorem startsLikeHeader_of_prefix {d : String} (h : "hw_".toList <+: d.toList) :
    StartsLikeHeader d := by
  obtain ⟨after, hafter⟩ := h
  exact (Text.exists_mem_splitAt_iff (by decide)).mpr ⟨[], after, hafter.symm, .inl rfl⟩

theorem startsLikeHeader_iff {d : String} (h : '\\' ∉ d.toList) :
    StartsLikeHeader d ↔ "hw_".toList <+: d.toList := by
  simp [StartsLikeHeader, Text.splitAt_of_not_mem h]

/-! ## Files below a root -/

variable {entries : List Tree.Entry} {root p : Path} {accepts : String → Bool}

/-- The names lead from the root to a file among the entries. -/
structure IsFileBelow (entries : List Tree.Entry) (root : Path) (names : List String) : Prop where
  isName : ∀ d ∈ names, Path.IsName d
  isFile : ∃ e ∈ entries, e.isFile = true ∧ e.place = root.components ++ names.map .name

theorem matching_foldl_iff (h : IsFileBelow entries root names) (hne : names ≠ []) :
    Matching entries root accepts (names.foldl Path.child root) ↔ accepts (seen names) = true := by
  have hcomponents : (names.foldl Path.child root).components =
      root.components ++ names.map .name := Path.components_foldl_child h.isName
  constructor
  · rintro ⟨names', -, -, hnames', -, haccepts⟩
    rw [hcomponents] at hnames'
    have hsame : names = names' := by
      have hinj : Function.Injective Component.name := fun _ _ => Component.name.inj
      exact hinj.list_map (List.append_cancel_left hnames')
    rwa [hsame]
  · intro haccepts
    obtain ⟨e, he, hfile, hplace⟩ := h.isFile
    exact ⟨names, hne, rfl, hcomponents, ⟨e, he, hfile, hplace.trans hcomponents.symm⟩, haccepts⟩

/-- A search selects the files that match, whatever else the tree holds. -/
theorem exists_collected (h : Tree.Consistent entries) (hroot : root.components ≠ [])
    (hdir : ((Tree.ofEntries entries).names? root.components).isSome) (accepts : String → Bool) :
    ∃ files, collect Tree.fileSystem root accepts (Tree.ofEntries entries) =
        (.ok ⟨files, []⟩, Tree.ofEntries entries) ∧
      ∀ p, p ∈ files ↔ Matching entries root accepts p := by
  have hgrown := h.grown
  obtain ⟨files, hcollect, -, hfound⟩ := collect_findable hgrown.named hgrown.once hdir accepts
  exact ⟨files, hcollect, fun p => (hfound p).trans (findable_iff hgrown hroot hdir)⟩

theorem exists_below_of_matching (h : Matching entries root accepts p) :
    ∃ names last, p = (names ++ [last]).foldl Path.child root ∧
      IsFileBelow entries root (names ++ [last]) := by
  obtain ⟨names, hne, rfl, hcomponents, ⟨e, he, hfile, hplace⟩, -⟩ := h
  obtain ⟨names, last, rfl⟩ : ∃ names' last, names = names' ++ [last] :=
    ⟨names.dropLast, names.getLast hne, (List.dropLast_append_getLast hne).symm⟩
  refine ⟨names, last, rfl, fun d hd => ?_, e, he, hfile, hplace.trans hcomponents⟩
  refine Path.isName_of_mem_components (p := e.path) ?_
  rw [← Tree.Entry.place, hplace, hcomponents]
  exact List.mem_append_right _ (List.mem_map_of_mem hd)

theorem readPattern_usual : readPattern ProjectSection.usualPattern = .ok Glob.headers := by
  have hread : Glob.read ProjectSection.usualPattern = .ok Glob.headers := Glob.read_headers
  simp only [readPattern, compile, hread, Glob.headers_compile, if_true]

/-- The usual pattern selects the files below the root whose own name ends with `.h`, if it or the
name of a directory on the way starts with `hw_`, a backslash in a name counting as a separator.
So a file that is named like a header is always selected, and where nothing before its own name
starts like a header only files that are named like headers are. All names from the root to the file
are texts here: what is reached by any other name is not selected. -/
theorem headers_selected (h : Tree.Consistent entries) (hroot : root.components ≠ [])
    (hdir : ((Tree.ofEntries entries).names? root.components).isSome) :
    readPattern ProjectSection.usualPattern = .ok Glob.headers ∧
    ∃ files, collect Tree.fileSystem root Glob.headers.matches (Tree.ofEntries entries) =
        (.ok ⟨files, []⟩, Tree.ofEntries entries) ∧
      (∀ p ∈ files, ∃ names last, p = (names ++ [last]).foldl Path.child root ∧
        IsFileBelow entries root (names ++ [last])) ∧
      ∀ names last, IsFileBelow entries root (names ++ [last]) →
        let selected := (names ++ [last]).foldl Path.child root ∈ files
        (selected ↔ ".h".toList <:+ last.toList ∧ ∃ d ∈ names ++ [last], StartsLikeHeader d) ∧
        ((∃ stem, last = headerName stem) → selected) ∧
        ((∀ d ∈ names, ¬ StartsLikeHeader d) → '\\' ∉ last.toList →
          (selected ↔ ∃ stem, last = headerName stem)) := by
  refine ⟨readPattern_usual, ?_⟩
  obtain ⟨files, hcollect, hfound⟩ := exists_collected h hroot hdir Glob.headers.matches
  refine ⟨files, hcollect, fun p hp => exists_below_of_matching ((hfound p).mp hp),
    fun names last hbelow => ?_⟩
  intro selected
  have hselected : selected ↔
      ".h".toList <:+ last.toList ∧ ∃ d ∈ names ++ [last], StartsLikeHeader d :=
    ((hfound _).trans (matching_foldl_iff hbelow (by simp))).trans
      (headers_matches_seen hbelow.isName)
  refine ⟨hselected, fun hstem => ?_, fun hplain hback => ?_⟩
  · obtain ⟨hstart, hend⟩ := eq_headerName_iff.mp hstem
    exact hselected.mpr ⟨hend, last, by simp, startsLikeHeader_of_prefix hstart⟩
  · rw [hselected, eq_headerName_iff, ← startsLikeHeader_iff hback, and_comm]
    refine and_congr_left fun _ => ⟨?_, fun hstart => ⟨last, by simp, hstart⟩⟩
    rintro ⟨d, hd, hstart⟩
    rcases List.mem_append.mp hd with hd | hd
    · exact absurd hstart (hplain d hd)
    · rwa [← List.mem_singleton.mp hd]

/-- A header, a note beside it, and a note in a directory that is named like a header. -/
def stray : List Tree.Entry :=
  [.file ⟨"main/hwconf/boards/hw_b.h"⟩ [], .file ⟨"main/hwconf/boards/readme.h"⟩ [],
    .file ⟨"main/hwconf/hw_boards/readme.h"⟩ []]

theorem consistent_stray : Tree.Consistent stray where
  plain := by decide +kernel
  apart := by decide +kernel
  leaf := by decide +kernel

theorem names_stray : ((Tree.ofEntries stray).names? (Path.components ⟨"main/hwconf"⟩)).isSome := by
  decide +kernel

/-- The header is selected, and the note beside it is not. -/
theorem stray_selected :
    (Tree.Consistent stray ∧ (⟨"main/hwconf"⟩ : Path).components ≠ [] ∧
      ((Tree.ofEntries stray).names? (Path.components ⟨"main/hwconf"⟩)).isSome) ∧
    ∃ files, collect Tree.fileSystem ⟨"main/hwconf"⟩ Glob.headers.matches (Tree.ofEntries stray) =
        (.ok ⟨files, []⟩, Tree.ofEntries stray) ∧
      ⟨"main/hwconf/boards/hw_b.h"⟩ ∈ files ∧ ⟨"main/hwconf/boards/readme.h"⟩ ∉ files := by
  have hroot : (⟨"main/hwconf"⟩ : Path).components ≠ [] := by decide +kernel
  have hplain : ∀ d ∈ ["boards"], ¬ StartsLikeHeader d := by decide +kernel
  have hheader : IsFileBelow stray ⟨"main/hwconf"⟩ (["boards"] ++ ["hw_b.h"]) :=
    ⟨by decide +kernel, .file ⟨"main/hwconf/boards/hw_b.h"⟩ [], by simp [stray], rfl,
      by decide +kernel⟩
  have hnote : IsFileBelow stray ⟨"main/hwconf"⟩ (["boards"] ++ ["readme.h"]) :=
    ⟨by decide +kernel, .file ⟨"main/hwconf/boards/readme.h"⟩ [], by simp [stray], rfl,
      by decide +kernel⟩
  obtain ⟨-, files, hcollect, -, hselected⟩ :=
    headers_selected consistent_stray hroot names_stray
  refine ⟨⟨consistent_stray, hroot, names_stray⟩, files, hcollect, ?_, ?_⟩
  · exact (hselected _ _ hheader).2.1 ⟨"b", by decide +kernel⟩
  · intro hmem
    have hstem := ((hselected _ _ hnote).2.2 hplain (by decide +kernel)).mp hmem
    exact absurd (eq_headerName_iff.mp hstem) (by decide +kernel)

/-- A note is selected for the directory that it lies in. -/
theorem stray_note_selected :
    ∃ files, collect Tree.fileSystem ⟨"main/hwconf"⟩ Glob.headers.matches (Tree.ofEntries stray) =
        (.ok ⟨files, []⟩, Tree.ofEntries stray) ∧
      ¬ (⟨"main/hwconf/hw_boards/readme.h"⟩ ∈ files ↔ ∃ stem, "readme.h" = headerName stem) := by
  have hnote : IsFileBelow stray ⟨"main/hwconf"⟩ (["hw_boards"] ++ ["readme.h"]) :=
    ⟨by decide +kernel, .file ⟨"main/hwconf/hw_boards/readme.h"⟩ [], by simp [stray], rfl,
      by decide +kernel⟩
  obtain ⟨files, hcollect, hfound⟩ :=
    exists_collected consistent_stray (by decide +kernel) names_stray Glob.headers.matches
  have hmem : (["hw_boards"] ++ ["readme.h"]).foldl Path.child ⟨"main/hwconf"⟩ ∈ files := by
    rw [hfound, matching_foldl_iff hnote (by simp), headers_matches_seen hnote.isName]
    decide +kernel
  refine ⟨files, hcollect, fun hiff => ?_⟩
  exact absurd (eq_headerName_iff.mp (hiff.mp hmem)) (by decide +kernel)

end Discovery

end FirmwareMatrix
