import Mathlib
import CInventory.FileTree

/-!
# The steps of a path

Following a path depends only on where it starts and on its pieces that are not idle, its steps.
Joining paths appends their steps, the parent drops the last one, and what is left of a path
behind the directory that it was made from is the names that were followed.
-/

namespace CInventory.Path

/-! ## Pieces -/

theorem pieces_ne_nil (path : String) : pieces path ≠ [] := by
  simp [pieces, List.splitOn_ne_nil]

theorem pieces_append_slash (a b : String) : pieces (a ++ "/" ++ b) = pieces a ++ pieces b := by
  have hlist : (a ++ "/" ++ b).toList = a.toList ++ '/' :: b.toList := by simp
  rw [pieces, hlist, List.splitOn_append_cons_self, List.map_append]
  rfl

theorem pieces_of_no_slash {s : String} (h : '/' ∉ s.toList) : pieces s = [s] := by
  simp [pieces, List.splitOn_eq_singleton h]

private theorem not_mem_of_mem_splitOn {sep : Char} {piece cs : List Char}
    (h : piece ∈ cs.splitOn sep) :
    sep ∉ piece := by
  induction cs generalizing piece with
  | nil => simp_all
  | cons c cs ih =>
      rw [List.splitOn_cons_eq_if_modifyHead] at h
      split at h
      · rcases List.mem_cons.mp h with rfl | h
        · exact List.not_mem_nil
        · exact ih h
      · next hc =>
          obtain ⟨first, others, hsplit⟩ :=
            List.exists_cons_of_ne_nil (List.splitOn_ne_nil sep cs)
          rw [hsplit, List.modifyHead_cons, List.mem_cons] at h
          rcases h with rfl | h
          · have hfirst : sep ∉ first := ih (hsplit ▸ List.mem_cons_self)
            have hne : sep ≠ c := fun heq => hc (by simp [heq])
            simp [hne, hfirst]
          · exact ih (hsplit ▸ List.mem_cons_of_mem _ h)

theorem no_slash_of_mem_pieces {path s : String} (h : s ∈ pieces path) : '/' ∉ s.toList := by
  obtain ⟨piece, hpiece, rfl⟩ := List.mem_map.mp h
  simpa using not_mem_of_mem_splitOn hpiece

theorem intercalate_pieces (path : String) : "/".intercalate (pieces path) = path := by
  have hmap : (pieces path).map String.toList = path.toList.splitOn '/' := by
    simp [pieces, Function.comp_def]
  apply String.toList_injective
  rw [String.toList_intercalate, hmap]
  exact List.intercalate_splitOn '/'

theorem pieces_intercalate {l : List String} (hne : l ≠ []) (h : ∀ s ∈ l, '/' ∉ s.toList) :
    pieces ("/".intercalate l) = l := by
  rw [pieces, String.toList_intercalate]
  have hsplit : List.splitOn '/' (['/'].intercalate (l.map String.toList)) =
      l.map String.toList := by
    apply List.splitOn_intercalate
    · simpa using h
    · simpa using hne
  change (List.splitOn '/' (['/'].intercalate (l.map String.toList))).map String.ofList = l
  rw [hsplit]
  simp [Function.comp_def]

/-- A path that starts or ends with a separator has an empty piece there. -/
theorem pieces_slash_append (b : String) : pieces ("/" ++ b) = "" :: pieces b := by
  simpa [pieces_of_no_slash] using pieces_append_slash "" b

theorem pieces_slash : pieces "/" = ["", ""] := by
  simpa [pieces_of_no_slash] using pieces_slash_append ""

theorem pieces_append_slash_nil (a : String) : pieces (a ++ "/") = pieces a ++ [""] := by
  simpa [pieces_of_no_slash] using pieces_append_slash a ""

theorem endsWith_slash_iff {s : String} : s.endsWith "/" = true ↔ ∃ t, s = t ++ "/" := by
  have hslice := @String.Slice.endsWith_string_iff "/" s.toSlice
  rw [show s.endsWith "/" = s.toSlice.endsWith "/" from rfl, hslice]
  constructor
  · rintro ⟨front, hfront⟩
    refine ⟨String.ofList front, String.toList_injective ?_⟩
    simpa using hfront.symm
  · rintro ⟨t, rfl⟩
    exact ⟨t.toList, by simp⟩

theorem isAbsolute_iff {s : String} : isAbsolute s = true ↔ ∃ t, s = "/" ++ t := by
  rw [isAbsolute, String.startsWith_string_iff]
  constructor
  · rintro ⟨back, hback⟩
    refine ⟨String.ofList back, String.toList_injective ?_⟩
    simpa using hback.symm
  · rintro ⟨t, rfl⟩
    exact ⟨t.toList, by simp⟩

theorem isAbsolute_empty : isAbsolute "" = false := by
  simp [isAbsolute, String.startsWith_string_iff, Bool.eq_false_iff]

theorem isAbsolute_append {a : String} (b : String) (h : a ≠ "") :
    isAbsolute (a ++ b) = isAbsolute a := by
  obtain ⟨c, cs, hcs⟩ : ∃ c cs, a.toList = c :: cs :=
    List.exists_cons_of_ne_nil (by simpa using h)
  rw [Bool.eq_iff_iff, isAbsolute, isAbsolute, String.startsWith_string_iff,
    String.startsWith_string_iff, String.toList_append, hcs]
  simp [List.cons_prefix_cons]

/-! ## Steps -/

/-- The pieces that lead somewhere. -/
def steps (path : String) : List String := (pieces path).filter (!isIdle ·)

structure IsName (s : String) : Prop where
  not_idle : isIdle s = false
  not_up : s ≠ ".."
  no_slash : '/' ∉ s.toList

theorem IsName.pieces_eq {s : String} (h : IsName s) : pieces s = [s] :=
  pieces_of_no_slash h.no_slash

theorem IsName.ne_empty {s : String} (h : IsName s) : s ≠ "" := by
  rintro rfl
  exact absurd h.not_idle (by decide)

theorem IsName.not_absolute {s : String} (h : IsName s) : isAbsolute s = false := by
  rw [Bool.eq_false_iff]
  intro habs
  obtain ⟨t, rfl⟩ := isAbsolute_iff.mp habs
  exact h.no_slash (by simp)

theorem IsName.steps_eq {s : String} (h : IsName s) : steps s = [s] := by
  simp [steps, h.pieces_eq, h.not_idle]

@[simp] theorem steps_empty : steps "" = [] := by
  simp [steps, pieces_of_no_slash, isIdle]

/-- The pieces of a joined path: those of the second path behind some with the steps of the
first. -/
theorem exists_pieces_join (base : String) {path : String} (h : isAbsolute path = false) :
    ∃ front, pieces (join base path) = front ++ pieces path ∧
      front.filter (!isIdle ·) = steps base := by
  rw [join, if_neg (by simp [h])]
  by_cases hempty : base = ""
  · subst hempty
    exact ⟨[], by simp, by simp⟩
  · by_cases hslash : base.endsWith "/" = true
    · rw [if_pos (by simp [hslash])]
      obtain ⟨t, rfl⟩ := endsWith_slash_iff.mp hslash
      exact ⟨pieces t, pieces_append_slash t path, by
        simp [steps, pieces_append_slash_nil, isIdle]⟩
    · rw [if_neg (by simp [hempty, hslash])]
      exact ⟨pieces base, pieces_append_slash base path, rfl⟩

theorem steps_join {base path : String} (h : isAbsolute path = false) :
    steps (join base path) = steps base ++ steps path := by
  obtain ⟨front, hpieces, hfront⟩ := exists_pieces_join base h
  rw [steps, hpieces, List.filter_append, hfront]
  rfl

theorem isAbsolute_join {base path : String} (h : isAbsolute path = false) :
    isAbsolute (join base path) = isAbsolute base := by
  rw [join, if_neg (by simp [h])]
  by_cases hempty : base = ""
  · subst hempty
    simpa [isAbsolute_empty] using h
  · split
    · exact isAbsolute_append path hempty
    · rw [String.append_assoc, isAbsolute_append _ hempty]

theorem join_ne_empty {base path : String} (h : path ≠ "") : join base path ≠ "" := by
  rw [join]
  split
  · exact h
  · split <;> simp [h]

/-! ## A path and its front -/

/-- The four ways in which a path starts. -/
theorem parts_cases (path : String) :
    (∃ t, path = "/" ++ t ∧ parts path = ⟨some .root, pieces t⟩) ∨
    (path = "." ∧ parts path = ⟨some .current, []⟩) ∨
    (∃ t, path = "." ++ "/" ++ t ∧ parts path = ⟨some .current, "" :: pieces t⟩) ∨
    (isAbsolute path = false ∧ parts path = ⟨none, pieces path⟩) := by
  rw [parts]
  split
  · next rest hpath =>
      exact .inl ⟨String.ofList rest, String.toList_injective (by simp [hpath]), rfl⟩
  · next hpath => exact .inr (.inl ⟨String.toList_injective (by simp [hpath]), rfl⟩)
  · next rest hpath =>
      have hbody : String.ofList ('/' :: rest) = "/" ++ String.ofList rest :=
        String.toList_injective (by simp)
      refine .inr (.inr (.inl ⟨String.ofList rest, String.toList_injective (by simp [hpath]), ?_⟩))
      rw [hbody, pieces_slash_append]
  · next hslash _ _ =>
      refine .inr (.inr (.inr ⟨?_, rfl⟩))
      rw [Bool.eq_false_iff]
      intro habs
      obtain ⟨t, rfl⟩ := isAbsolute_iff.mp habs
      exact hslash t.toList (by simp)

private theorem filter_body_parts (path : String) :
    (parts path).body.filter (!isIdle ·) = steps path := by
  rcases parts_cases path with
    ⟨t, hpath, hparts⟩ | ⟨hpath, hparts⟩ | ⟨t, hpath, hparts⟩ | ⟨-, hparts⟩
  · rw [hparts, hpath, steps, pieces_slash_append]
    simp [isIdle]
  · rw [hparts, hpath]
    simp [steps, pieces_of_no_slash, isIdle]
  · rw [hparts, hpath, steps, pieces_append_slash]
    simp [pieces_of_no_slash, isIdle]
  · rw [hparts, steps]

theorem components_eq (path : String) :
    components path = (parts path).front.toList ++ (steps path).map pieceComponent := by
  rw [components, filter_body_parts]

def Component.step? : Component → Option String
  | .root => none
  | .current => none
  | .parent => some ".."
  | .name text => some text

theorem steps_eq_filterMap (path : String) :
    steps path = (components path).filterMap Component.step? := by
  have hfront : (parts path).front.toList.filterMap Component.step? = [] := by
    rcases parts_cases path with ⟨_, -, h⟩ | ⟨-, h⟩ | ⟨_, -, h⟩ | ⟨-, h⟩ <;> rw [h] <;> rfl
  have hstep : Component.step? ∘ pieceComponent = some := by
    funext piece
    by_cases hup : piece = ".." <;> simp [pieceComponent, Component.step?, hup]
  rw [components_eq, List.filterMap_append, hfront, List.filterMap_map, hstep, List.nil_append,
    List.filterMap_some]

theorem steps_of_components {f g : String} (h : components f = components g) :
    steps f = steps g := by
  rw [steps_eq_filterMap, h, ← steps_eq_filterMap]

/-- A path that starts with an idle piece has a front. -/
theorem front_parts_of_idle {path first : String} {others : List String} (hpath : path ≠ "")
    (hpieces : pieces path = first :: others) (h : isIdle first = true) :
    (parts path).front ≠ none := by
  have hwhole := intercalate_pieces path
  rw [hpieces] at hwhole
  have hfirst : first = "" ∨ first = "." := by simpa [isIdle] using h
  rcases others with _ | ⟨second, others⟩
  · have hwhole : first = path := by simpa using hwhole
    rcases hfirst with rfl | rfl
    · exact absurd hwhole.symm hpath
    · simp [← hwhole, parts]
  · have hlist := congrArg String.toList hwhole
    rw [String.toList_intercalate, List.map_cons, List.map_cons,
      List.intercalate_cons_cons] at hlist
    rw [parts, ← hlist]
    rcases hfirst with rfl | rfl <;> simp

theorem components_ne_nil {path : String} (h : path ≠ "") : components path ≠ [] := by
  intro hnil
  rw [components_eq, List.append_eq_nil_iff, List.map_eq_nil_iff] at hnil
  obtain ⟨first, others, hpieces⟩ := List.exists_cons_of_ne_nil (pieces_ne_nil path)
  have hidle : isIdle first = true := by
    have hsteps := hnil.2
    rw [steps, hpieces, List.filter_eq_nil_iff] at hsteps
    simpa using hsteps first List.mem_cons_self
  apply front_parts_of_idle h hpieces hidle
  cases hfront : (parts path).front with
  | none => rfl
  | some c => simp [hfront] at hnil

theorem front_parts_append {a : String} (b : String) (ha : a ≠ "") (hdot : a ≠ ".") :
    (parts (a ++ b)).front = (parts a).front := by
  obtain ⟨c, cs, hcs⟩ : ∃ c cs, a.toList = c :: cs :=
    List.exists_cons_of_ne_nil (by simpa using ha)
  have hdot : a.toList ≠ ['.'] := fun h => hdot (String.toList_injective (by simp [h]))
  rw [parts, parts, String.toList_append, hcs]
  rw [hcs] at hdot
  rcases cs with _ | ⟨d, cs⟩
  · by_cases hc : c = '/'
    · simp [hc]
    · have : c ≠ '.' := fun h => hdot (by rw [h])
      split <;> simp_all
  · rw [List.cons_append, List.cons_append]
    split <;> split <;> simp_all

theorem front_parts_join {base name : String} (hbase : base ≠ "") (h : IsName name) :
    (parts (join base name)).front = (parts base).front := by
  rw [join, if_neg (by simp [h.not_absolute])]
  by_cases hdot : base = "."
  · subst hdot
    have hlist : ("." ++ "/" ++ name).toList = '.' :: '/' :: name.toList := by simp
    have hend : (".".endsWith "/") = false := by
      rw [Bool.eq_false_iff]
      intro hend
      obtain ⟨t, ht⟩ := endsWith_slash_iff.mp hend
      have := congrArg (fun s => s.toList.getLast?) ht
      simp at this
    rw [if_neg (by simp [hend]), parts, hlist]
    rfl
  · split
    · exact front_parts_append name hbase hdot
    · rw [String.append_assoc, front_parts_append _ hbase hdot]

/-- Following names from a directory adds them to its steps and leaves its front as it is. -/
theorem foldl_join (base : String) {names : List String} (h : ∀ n ∈ names, IsName n) :
    steps (names.foldl join base) = steps base ++ names := by
  induction names generalizing base with
  | nil => simp
  | cons n names ih =>
      have hn : IsName n := h n List.mem_cons_self
      rw [List.foldl_cons, ih _ fun m hm => h m (List.mem_cons_of_mem _ hm),
        steps_join hn.not_absolute, hn.steps_eq, List.append_assoc, List.singleton_append]

theorem isAbsolute_foldl_join (base : String) {names : List String} (h : ∀ n ∈ names, IsName n) :
    isAbsolute (names.foldl join base) = isAbsolute base := by
  induction names generalizing base with
  | nil => rfl
  | cons n names ih =>
      have hn : IsName n := h n List.mem_cons_self
      rw [List.foldl_cons, ih _ fun m hm => h m (List.mem_cons_of_mem _ hm),
        isAbsolute_join hn.not_absolute]

theorem foldl_join_ne_empty {base : String} {names : List String} (hne : names ≠ [])
    (h : ∀ n ∈ names, IsName n) : names.foldl join base ≠ "" := by
  obtain ⟨front, last, rfl⟩ := (List.eq_nil_or_concat' names).resolve_left hne
  rw [List.foldl_append]
  exact join_ne_empty (h last (by simp)).ne_empty

theorem front_parts_foldl_join {base : String} {names : List String} (hbase : base ≠ "")
    (h : ∀ n ∈ names, IsName n) :
    (parts (names.foldl join base)).front = (parts base).front := by
  induction names generalizing base with
  | nil => rfl
  | cons n names ih =>
      have hn : IsName n := h n List.mem_cons_self
      rw [List.foldl_cons,
        ih (join_ne_empty hn.ne_empty) fun m hm => h m (List.mem_cons_of_mem _ hm),
        front_parts_join hbase hn]

/-! ## Ends without idle pieces -/

def LastLeads (l : List String) : Prop := ∃ last, l.getLast? = some last ∧ isIdle last = false

theorem LastLeads.ne_nil {l : List String} (h : LastLeads l) : l ≠ [] := by
  rintro rfl
  obtain ⟨last, hlast, -⟩ := h
  cases hlast

theorem LastLeads.exists_append {l : List String} (h : LastLeads l) :
    ∃ front last, l = front ++ [last] ∧ isIdle last = false := by
  obtain ⟨last, hlast, hidle⟩ := h
  obtain ⟨front, rfl⟩ := List.getLast?_eq_some_iff.mp hlast
  exact ⟨front, last, rfl, hidle⟩

theorem lastLeads_append {l : List String} (front : List String) (h : LastLeads l) :
    LastLeads (front ++ l) := by
  obtain ⟨before, last, rfl, hidle⟩ := h.exists_append
  exact ⟨last, by simp, hidle⟩

theorem lastLeads_cons {piece : String} {l : List String} (hne : l ≠ []) :
    LastLeads (piece :: l) ↔ LastLeads l := by
  obtain ⟨last, hlast⟩ : ∃ last, l.getLast? = some last :=
    ⟨l.getLast hne, List.getLast?_eq_some_getLast hne⟩
  simp [LastLeads, List.getLast?_cons, hlast]

theorem lastLeads_pieces_join (base : String) {path : String} (habs : isAbsolute path = false)
    (h : LastLeads (pieces path)) : LastLeads (pieces (join base path)) := by
  obtain ⟨before, hjoin, -⟩ := exists_pieces_join base habs
  rw [hjoin]
  exact lastLeads_append before h

theorem IsName.lastLeads {s : String} (h : IsName s) : LastLeads (pieces s) := by
  rw [h.pieces_eq]
  exact ⟨s, rfl, h.not_idle⟩

theorem trimPieces_isPrefix (body : List String) : trimPieces body <+: body := by
  rw [trimPieces, ← List.reverse_suffix, List.reverse_reverse]
  exact List.dropWhile_suffix _

theorem trimPieces_of_lastLeads {body : List String} (h : LastLeads body) :
    trimPieces body = body := by
  obtain ⟨front, last, rfl, hidle⟩ := h.exists_append
  simp [trimPieces, hidle]

theorem trimPieces_eq_nil_or_lastLeads (body : List String) :
    trimPieces body = [] ∨ LastLeads (trimPieces body) := by
  rw [trimPieces]
  rcases hrest : body.reverse.dropWhile isIdle with _ | ⟨last, front⟩
  · exact .inl rfl
  · refine .inr ⟨last, by simp, ?_⟩
    have := List.head?_dropWhile_not isIdle body.reverse
    rw [hrest] at this
    simpa using this

theorem filter_trimPieces (body : List String) :
    (trimPieces body).filter (!isIdle ·) = body.filter (!isIdle ·) := by
  have hsplit : body = trimPieces body ++ (body.reverse.takeWhile isIdle).reverse := by
    rw [trimPieces, ← List.reverse_append, List.takeWhile_append_dropWhile, List.reverse_reverse]
  conv_rhs => rw [hsplit, List.filter_append]
  have hidle : (body.reverse.takeWhile isIdle).reverse.filter (!isIdle ·) = [] := by
    rw [List.filter_eq_nil_iff]
    intro piece hpiece
    have := List.mem_takeWhile_imp (List.mem_reverse.mp hpiece)
    simp [this]
  rw [hidle, List.append_nil]

private theorem no_slash_of_mem_body {path piece : String} (h : piece ∈ (parts path).body) :
    '/' ∉ piece.toList := by
  rcases parts_cases path with ⟨t, -, hparts⟩ | ⟨-, hparts⟩ | ⟨t, -, hparts⟩ | ⟨-, hparts⟩ <;>
    rw [hparts] at h
  · exact no_slash_of_mem_pieces h
  · cases h
  · rcases List.mem_cons.mp h with rfl | h
    · exact List.not_mem_nil
    · exact no_slash_of_mem_pieces h
  · exact no_slash_of_mem_pieces h

/-! ## Names behind a directory -/

theorem not_endsWith_slash {path : String} (h : LastLeads (pieces path)) :
    path.endsWith "/" = false := by
  rw [Bool.eq_false_iff]
  intro hslash
  obtain ⟨t, rfl⟩ := endsWith_slash_iff.mp hslash
  rw [pieces_append_slash_nil] at h
  obtain ⟨last, hlast, hidle⟩ := h
  simp_all [isIdle]

theorem not_endsWith_slash_join (base : String) {name : String} (h : IsName name) :
    (join base name).endsWith "/" = false :=
  not_endsWith_slash (lastLeads_pieces_join base h.not_absolute h.lastLeads)

theorem join_of_relative {base path : String} (h : isAbsolute path = false) :
    join base path = (if base = "" || base.endsWith "/" then base else base ++ "/") ++ path := by
  rw [join, if_neg (by simp [h])]
  split <;> rfl

theorem pieces_foldl_join {base : String} {names : List String} (hbase : base ≠ "")
    (hslash : base.endsWith "/" = false) (h : ∀ n ∈ names, IsName n) :
    pieces (names.foldl join base) = pieces base ++ names := by
  induction names generalizing base with
  | nil => simp
  | cons n names ih =>
      have hn : IsName n := h n List.mem_cons_self
      have hjoin : join base n = base ++ "/" ++ n := by
        simp [join, hn.not_absolute, hbase, hslash]
      rw [List.foldl_cons, ih (join_ne_empty hn.ne_empty) (not_endsWith_slash_join base hn)
        fun m hm => h m (List.mem_cons_of_mem _ hm), hjoin, pieces_append_slash, hn.pieces_eq]
      simp

theorem exists_pieces_foldl_join (base : String) {names : List String} (hne : names ≠ [])
    (h : ∀ n ∈ names, IsName n) :
    ∃ front, pieces (names.foldl join base) = front ++ names ∧
      front.filter (!isIdle ·) = steps base := by
  obtain ⟨n, rest, rfl⟩ := List.exists_cons_of_ne_nil hne
  have hn : IsName n := h n List.mem_cons_self
  obtain ⟨front, hpieces, hfront⟩ := exists_pieces_join base hn.not_absolute
  refine ⟨front, ?_, hfront⟩
  rw [List.foldl_cons, pieces_foldl_join (join_ne_empty hn.ne_empty)
    (not_endsWith_slash_join base hn) fun m hm => h m (List.mem_cons_of_mem _ hm), hpieces,
    hn.pieces_eq, List.append_assoc, List.singleton_append]

theorem exists_cons_of_idle {front names rest : List String} {piece : String}
    (hidle : isIdle piece = true) (hne : names ≠ []) (h : ∀ n ∈ names, IsName n)
    (heq : piece :: rest = front ++ names) :
    ∃ front', front = piece :: front' ∧ rest = front' ++ names := by
  rcases front with _ | ⟨first, front⟩
  · obtain ⟨n, names, rfl⟩ := List.exists_cons_of_ne_nil hne
    obtain ⟨rfl, -⟩ := List.cons.inj heq
    exact absurd (h piece List.mem_cons_self).not_idle (by simp [hidle])
  · obtain ⟨rfl, rfl⟩ := List.cons.inj heq
    exact ⟨front, rfl, rfl⟩

theorem exists_body_foldl_join (base : String) {names : List String} (hne : names ≠ [])
    (h : ∀ n ∈ names, IsName n) :
    ∃ front, (parts (names.foldl join base)).body = front ++ names ∧
      front.filter (!isIdle ·) = steps base := by
  obtain ⟨front, hpieces, hfront⟩ := exists_pieces_foldl_join base hne h
  generalize names.foldl join base = path at hpieces
  -- A front of the path takes an idle piece away, or puts another in its place.
  rcases parts_cases path with ⟨t, rfl, hparts⟩ | ⟨rfl, -⟩ | ⟨t, rfl, hparts⟩ | ⟨-, hparts⟩
  · rw [pieces_slash_append] at hpieces
    obtain ⟨front', rfl, hbody⟩ := exists_cons_of_idle rfl hne h hpieces
    exact ⟨front', by rw [hparts, hbody], hfront⟩
  · rw [pieces_of_no_slash (by decide)] at hpieces
    obtain ⟨front', -, hnil⟩ := exists_cons_of_idle rfl hne h hpieces
    exact absurd (List.append_eq_nil_iff.mp hnil.symm).2 hne
  · rw [pieces_append_slash, pieces_of_no_slash (s := ".") (by decide),
      List.singleton_append] at hpieces
    obtain ⟨front', rfl, hbody⟩ := exists_cons_of_idle rfl hne h hpieces
    exact ⟨"" :: front', by rw [hparts, hbody, List.cons_append], hfront⟩
  · exact ⟨front, by rw [hparts, hpieces], hfront⟩

/-- Behind as many named pieces as there are in front, only idle ones are left of the front. -/
theorem dropNamed_append {front : List String} (back : List String) {n : Nat}
    (h : (front.filter (!isIdle ·)).length = n) :
    (dropNamed n (front ++ back)).dropWhile isIdle = back.dropWhile isIdle := by
  induction front generalizing n with
  | nil =>
      obtain rfl : 0 = n := h
      rw [List.nil_append, dropNamed]
  | cons piece front ih =>
      by_cases hidle : isIdle piece = true
      · have hrest : (front.filter (!isIdle ·)).length = n := by simpa [hidle] using h
        have hdrop := ih hrest
        cases n with
        | zero =>
            rw [dropNamed] at hdrop ⊢
            rw [List.cons_append, List.dropWhile_cons_of_pos hidle, hdrop]
        | succ n =>
            rw [List.cons_append, dropNamed, if_pos hidle]
            exact hdrop
      · obtain ⟨m, rfl⟩ : ∃ m, n = m + 1 := ⟨_, by simpa [hidle] using h.symm⟩
        rw [List.cons_append, dropNamed, if_neg hidle]
        exact ih (by simpa [hidle] using h)

/-- Behind its directory a path made by following names is these names. -/
theorem stripPrefix?_foldl_join {base : String} {names : List String} (hbase : base ≠ "")
    (hne : names ≠ []) (h : ∀ n ∈ names, IsName n) :
    stripPrefix? base (names.foldl join base) = some ("/".intercalate names) := by
  obtain ⟨front, hbody, hfront⟩ := exists_body_foldl_join base hne h
  have hsteps := foldl_join base h
  have hparts := front_parts_foldl_join hbase h
  have hprefix : (components base).isPrefixOf (components (names.foldl join base)) = true := by
    rw [List.isPrefixOf_iff_prefix, components_eq, components_eq, hparts, hsteps, List.map_append,
      ← List.append_assoc]
    exact List.prefix_append _ _
  have hcount : (if (parts (names.foldl join base)).front.isSome then (components base).length - 1
      else (components base).length) = (front.filter (!isIdle ·)).length := by
    rw [hfront, components_eq, hparts]
    cases (parts base).front <;> simp
  obtain ⟨n, rest, hnames⟩ := List.exists_cons_of_ne_nil hne
  have hstart : names.dropWhile isIdle = names := by
    rw [hnames, List.dropWhile_cons_of_neg]
    simp [(h n (hnames ▸ List.mem_cons_self)).not_idle]
  have hlast : LastLeads names := by
    obtain ⟨before, last, rfl⟩ := (List.eq_nil_or_concat' names).resolve_left hne
    exact ⟨last, by simp, (h last (by simp)).not_idle⟩
  rw [stripPrefix?, if_pos hprefix, if_neg (by simpa using components_ne_nil hbase), hcount, hbody]
  dsimp only
  rw [dropNamed_append names rfl, hstart, trimPieces_of_lastLeads hlast]

theorem not_absolute_intercalate {names : List String} (h : ∀ n ∈ names, IsName n) :
    isAbsolute ("/".intercalate names) = false := by
  match names with
  | [] => exact isAbsolute_empty
  | [n] => simpa using (h n List.mem_cons_self).not_absolute
  | n :: m :: rest =>
      have hn : IsName n := h n List.mem_cons_self
      rw [String.intercalate_cons_cons, String.append_assoc, isAbsolute_append _ hn.ne_empty]
      exact hn.not_absolute

theorem join_intercalate (base : String) {names : List String} (hne : names ≠ [])
    (h : ∀ n ∈ names, IsName n) :
    join base ("/".intercalate names) = names.foldl join base := by
  induction names generalizing base with
  | nil => exact absurd rfl hne
  | cons n names ih =>
      have hn : IsName n := h n List.mem_cons_self
      rcases names with _ | ⟨m, names⟩
      · simp
      · have hrest : ∀ k ∈ m :: names, IsName k := fun k hk => h k (List.mem_cons_of_mem _ hk)
        have hbehind : join (join base n) ("/".intercalate (m :: names)) =
            join base n ++ "/" ++ "/".intercalate (m :: names) := by
          rw [join_of_relative (not_absolute_intercalate hrest), if_neg]
          simp [join_ne_empty hn.ne_empty, not_endsWith_slash_join base hn]
        rw [List.foldl_cons, ← ih (join base n) (List.cons_ne_nil _ _) hrest, hbehind,
          join_of_relative (not_absolute_intercalate h), join_of_relative hn.not_absolute,
          String.intercalate_cons_cons]
        simp only [String.append_assoc]

/-! ## Parents -/

private theorem slash_intercalate_cons {l : List String} (hne : l ≠ []) :
    "/".intercalate ("" :: l) = "/" ++ "/".intercalate l := by
  obtain ⟨first, others, rfl⟩ := List.exists_cons_of_ne_nil hne
  apply String.toList_injective
  simp [String.toList_intercalate]

theorem parts_shown (path : String) :
    ((parts path).front.elim "" Component.text) ++ "/".intercalate (parts path).body = path := by
  rcases parts_cases path with
    ⟨t, hpath, hparts⟩ | ⟨hpath, hparts⟩ | ⟨t, hpath, hparts⟩ | ⟨-, hparts⟩ <;>
    rw [hparts]
  · simp [hpath, intercalate_pieces, Component.text]
  · simp [hpath, Component.text]
  · simp [hpath, slash_intercalate_cons (pieces_ne_nil t), intercalate_pieces,
      Component.text, ← String.append_assoc]
  · simp [intercalate_pieces]

private theorem intercalate_append_step (l : List String) (last : String) :
    ∃ sep, "/".intercalate (l ++ [last]) = "/".intercalate l ++ sep ++ last := by
  induction l with
  | nil => exact ⟨"", by simp⟩
  | cons s l ih =>
      rcases l with _ | ⟨s', l⟩
      · exact ⟨"/", by simp⟩
      · obtain ⟨sep, hsep⟩ := ih
        refine ⟨sep, ?_⟩
        apply String.toList_injective
        have hlist := congrArg String.toList hsep
        simp only [String.toList_intercalate, List.cons_append, List.map_cons, List.map_append,
          List.map_nil, String.toList_append, List.intercalate_cons_cons,
          List.append_assoc] at hlist ⊢
        rw [hlist]

theorem intercalate_isPrefix {front whole : List String} (h : front <+: whole) :
    ("/".intercalate front).toList <+: ("/".intercalate whole).toList := by
  obtain ⟨back, rfl⟩ := h
  induction back using List.reverseRecOn with
  | nil => simp
  | append_singleton back last ih =>
      obtain ⟨sep, hsep⟩ := intercalate_append_step (front ++ back) last
      rw [← List.append_assoc, hsep, String.append_assoc, String.toList_append]
      exact ih.trans (List.prefix_append _ _)

private theorem lastLeads_body {path : String} (h : LastLeads (pieces path)) :
    LastLeads (parts path).body := by
  rcases parts_cases path with
    ⟨t, hpath, hparts⟩ | ⟨hpath, hparts⟩ | ⟨t, hpath, hparts⟩ | ⟨-, hparts⟩ <;>
    rw [hparts]
  · rwa [hpath, pieces_slash_append, lastLeads_cons (pieces_ne_nil t)] at h
  · obtain ⟨last, hlast, hidle⟩ := h
    rw [hpath, pieces_of_no_slash (by decide)] at hlast
    simp_all [isIdle]
  · rw [hpath, pieces_append_slash, pieces_of_no_slash (by decide), List.singleton_append,
      lastLeads_cons (pieces_ne_nil t)] at h
    rwa [lastLeads_cons (pieces_ne_nil t)]
  · exact h

/-- The paths that the parents of a path lead down to. -/
def IsBare (path : String) : Prop := path = "" ∨ path = "." ∨ path = "/"

/-- The steps of a front and of pieces behind it that were cut at the end. -/
theorem shown_cases {path : String} {l : List String} (h : l <+: (parts path).body)
    (hcut : l = [] ∨ LastLeads l) :
    steps ((parts path).front.elim "" Component.text ++ "/".intercalate l) =
      l.filter (!isIdle ·) ∧
    (IsBare ((parts path).front.elim "" Component.text ++ "/".intercalate l) ∨
      LastLeads (pieces ((parts path).front.elim "" Component.text ++ "/".intercalate l))) := by
  have hslash : ∀ s ∈ l, '/' ∉ s.toList := fun s hs => no_slash_of_mem_body (h.subset hs)
  have hroot : steps "/" = [] := by simp [steps, pieces_slash, isIdle]
  have hdot : pieces "." = ["."] := pieces_of_no_slash (by decide)
  rcases parts_cases path with ⟨t, -, hparts⟩ | ⟨-, hparts⟩ | ⟨t, -, hparts⟩ | ⟨-, hparts⟩ <;>
    rw [hparts] at h ⊢ <;> rcases hcut with rfl | hlast
  · exact ⟨hroot, .inl (.inr (.inr rfl))⟩
  · have hpieces := pieces_intercalate hlast.ne_nil hslash
    simp only [Option.elim_some, Component.text, steps, pieces_slash_append, hpieces]
    exact ⟨by simp [isIdle], .inr ((lastLeads_cons hlast.ne_nil).mpr hlast)⟩
  · exact ⟨by simp [Component.text, steps, hdot, isIdle], .inl (.inr (.inl rfl))⟩
  · exact absurd (List.prefix_nil.mp h) hlast.ne_nil
  · exact ⟨by simp [Component.text, steps, hdot, isIdle], .inl (.inr (.inl rfl))⟩
  · -- The pieces behind a dot start with an empty one.
    obtain ⟨first, l, rfl⟩ := List.exists_cons_of_ne_nil hlast.ne_nil
    obtain ⟨rfl, -⟩ := List.cons_prefix_cons.mp h
    have hne : l ≠ [] := by
      rintro rfl
      obtain ⟨last, hget, hidle⟩ := hlast
      simp_all [isIdle]
    have hpieces := pieces_intercalate hne fun s hs => hslash s (List.mem_cons_of_mem _ hs)
    rw [lastLeads_cons hne] at hlast
    simp only [Option.elim_some, Component.text, slash_intercalate_cons hne, ← String.append_assoc,
      steps, pieces_append_slash, hpieces, hdot]
    exact ⟨by simp [isIdle], .inr ((lastLeads_cons hne).mpr hlast)⟩
  · exact ⟨by simp, .inl (.inl rfl)⟩
  · have hpieces := pieces_intercalate hlast.ne_nil hslash
    simp only [Option.elim_none, String.empty_append, steps, hpieces]
    exact ⟨trivial, .inr hlast⟩

theorem isAbsolute_of_isPrefix {a b : String} (h : a.toList <+: b.toList) (ha : a ≠ "") :
    isAbsolute a = isAbsolute b := by
  obtain ⟨back, hback⟩ := h
  have hb : b = a ++ String.ofList back := String.toList_injective (by simp [hback])
  rw [hb, isAbsolute_append _ ha]

structure IsParent (parent path : String) : Prop where
  steps_eq : steps parent = (steps path).dropLast
  isAbsolute_eq : isAbsolute parent = isAbsolute path
  isPrefix : parent.toList <+: path.toList
  length_lt : parent.length < path.length
  ends : IsBare parent ∨ LastLeads (pieces parent)

theorem parent?_eq {path last : String} {front : List String}
    (hbody : (parts path).body = front ++ [last]) (hidle : isIdle last = false) :
    parent? path = some
      ((parts path).front.elim "" Component.text ++ "/".intercalate (trimPieces front)) := by
  have htrim : trimPieces (parts path).body = front ++ [last] := by
    rw [trimPieces_of_lastLeads ⟨last, by simp [hbody], hidle⟩, hbody]
  simp [parent?, htrim, Parts.shown]

theorem exists_parent {path : String} (h : LastLeads (pieces path)) :
    ∃ parent, parent? path = some parent ∧ IsParent parent path := by
  obtain ⟨front, last, hbody, hidle⟩ := (lastLeads_body h).exists_append
  have hcut : trimPieces front <+: (parts path).body :=
    (trimPieces_isPrefix front).trans (hbody ▸ List.prefix_append _ _)
  obtain ⟨hsteps, hends⟩ := shown_cases hcut (trimPieces_eq_nil_or_lastLeads front)
  have hparent := parent?_eq hbody hidle
  -- The parent is a front part of the path, and at least the last piece is missing.
  obtain ⟨sep, hsep⟩ := intercalate_append_step front last
  have hwhole := parts_shown path
  rw [hbody, hsep] at hwhole
  have htrim := intercalate_isPrefix (trimPieces_isPrefix front)
  have hlist := congrArg String.toList hwhole
  simp only [String.toList_append, List.append_assoc] at hlist
  have hshort : ((parts path).front.elim "" Component.text ++
      "/".intercalate (trimPieces front)).toList <+: path.toList := by
    rw [← hlist, String.toList_append, List.prefix_append_right_inj]
    exact htrim.trans (List.prefix_append _ _)
  refine ⟨_, hparent, ⟨?_, ?_, hshort, ?_, hends⟩⟩
  · rw [hsteps, filter_trimPieces, ← filter_body_parts path, hbody, List.filter_append]
    simp [hidle]
  · by_cases hempty : (parts path).front.elim "" Component.text ++
        "/".intercalate (trimPieces front) = ""
    · rw [hempty, isAbsolute_empty]
      rcases parts_cases path with ⟨t, -, hparts⟩ | ⟨-, hparts⟩ | ⟨t, -, hparts⟩ | ⟨habs, -⟩
      · simp [hparts, Component.text] at hempty
      · simp [hparts, Component.text] at hempty
      · simp [hparts, Component.text] at hempty
      · exact habs.symm
    · exact isAbsolute_of_isPrefix hshort hempty
  · have hlast : 0 < last.toList.length := by
      rw [List.length_pos_iff]
      rintro hnil
      simp_all [isIdle]
    have hle := htrim.length_le
    have hlength := congrArg List.length hlist
    simp only [List.length_append] at hlength
    rw [← String.length_toList, ← String.length_toList, String.toList_append, List.length_append]
    omega

/-! ## Names -/

theorem isName_of_mem_steps {path s : String} (h : s ∈ steps path) : s = ".." ∨ IsName s := by
  rw [steps, List.mem_filter] at h
  by_cases hup : s = ".."
  · exact .inl hup
  · exact .inr ⟨by simpa using h.2, hup, no_slash_of_mem_pieces h.1⟩

theorem fileName?_of_steps {path last : String} {front : List String}
    (h : steps path = front ++ [last]) (hup : last ≠ "..") : fileName? path = some last := by
  simp [fileName?, components_eq, h, pieceComponent, hup]

end CInventory.Path
