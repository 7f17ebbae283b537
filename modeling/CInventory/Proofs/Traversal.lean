import Mathlib
import CInventory.Proofs.Discovery
import CInventory.Proofs.SourceNames

/-!
# Walking through a directory

A walk takes the names in a directory in the order in which they are listed, goes on into the
directories and collects the sources. Whatever that order is, the walk finds the sources that
discovery takes up, each of them once, and it goes through the directories that discovery has
listed. It ends at the first of them that cannot be listed.
-/

namespace CInventory

open CInventory.Path (IsName IsSourceName steps)

/-! ## Names below a directory -/

namespace Path

theorem isPrefix_foldl_join (base : String) {names : List String}
    (h : ∀ n ∈ names, IsName n) : base.toList <+: (names.foldl join base).toList := by
  induction names generalizing base with
  | nil => exact List.prefix_refl _
  | cons n rest ih =>
      refine List.IsPrefix.trans ?_ (ih _ fun m hm => h m (List.mem_cons_of_mem _ hm))
      rw [join_of_relative (h n List.mem_cons_self).not_absolute, String.toList_append]
      refine List.IsPrefix.trans ?_ (List.prefix_append _ _)
      split
      · exact List.prefix_refl _
      · rw [String.toList_append]
        exact List.prefix_append _ _

theorem isSource_foldl_join_iff (base : String) {names : List String}
    (h : ∀ n ∈ names, IsName n) (hne : names ≠ []) :
    isSource (names.foldl join base) = true ↔
      ∃ last, names.getLast? = some last ∧ IsSourceName last := by
  have hsteps := foldl_join base h
  rw [← List.dropLast_append_getLast hne, ← List.append_assoc, List.dropLast_append_getLast hne]
    at hsteps
  rw [isSource_iff hsteps (h _ (List.getLast_mem hne)).not_up, List.getLast?_eq_some_getLast hne]
  simp

end Path

namespace FileTree

section Names

variable {t : FileTree} {path : String} {place names : Location} {node : Node}

theorem WellFormed.exists_of_append (wf : t.WellFormed)
    (h : t.at? (place ++ names) = some node) : ∃ node', t.at? place = some node' := by
  by_cases hnames : names = []
  · exact ⟨node, by simpa [hnames] using h⟩
  · exact ⟨_, wf.of_isPrefix h (List.prefix_append _ _) (by simpa using hnames)⟩

theorem arrive_of_resolve (hpath : t.resolve path = .ok place)
    (hplace : t.at? place = some .directory) :
    t.arrive (t.origin path) (steps path) = .ok place := by
  have hwalk : t.walk (t.origin path) (Path.pieces path) = .ok place := by
    rwa [resolve, pathFault?_of_resolve hpath] at hpath
  rw [steps, arrive_filter, arrive, hwalk, Except.bind, if_pos (isDirectoryAt_iff.mpr hplace)]

theorem resolve_of_arrive (hfault : pathFault? path = none)
    (harrive : t.arrive (t.origin path) (steps path) = .ok place) : t.resolve path = .ok place := by
  rw [steps, arrive_filter] at harrive
  obtain ⟨there, hwalk, hthere⟩ := bind_eq_ok harrive
  split at hthere <;> cases hthere
  rw [resolve, hfault]
  exact hwalk

/-- A name in a directory leads on, if the longer path can be followed at all. -/
theorem resolve_join (wf : t.WellFormed) (hpath : t.resolve path = .ok place) {name : String}
    (hnode : t.at? (place ++ [name]) = some node)
    (hfault : pathFault? (Path.join path name) = none) :
    t.resolve (Path.join path name) = .ok (place ++ [name]) := by
  have hplace := wf.parent hnode
  obtain ⟨hname, hsize⟩ := wf.isName hnode
  have habs := hname.not_absolute
  have hsteps : steps (Path.join path name) = steps path ++ [name] := by
    rw [Path.steps_join habs, hname.steps_eq]
  rw [t.resolve_of_steps hfault (Path.lastLeads_pieces_join path habs hname.lastLeads) hsteps,
    origin_congr rfl (Path.isAbsolute_join habs), arrive_of_resolve hpath hplace]
  simp [Except.bind, step, isDirectoryAt_iff.mpr hplace, hname.not_idle, hname.not_up,
    Nat.not_lt.mpr hsize, hnode]

/-- The path to a place on the way is shorter, so it can be followed too. -/
theorem pathFault?_front (front : Location) {back : Location} (hne : front ≠ [])
    (hnames : ∀ n ∈ front ++ back, IsName n)
    (hfault : pathFault? ((front ++ back).foldl Path.join path) = none) :
    pathFault? (front.foldl Path.join path) = none := by
  rw [List.foldl_append] at hfault
  exact pathFault?_of_isPrefix
    (Path.isPrefix_foldl_join _ fun n hn => hnames n (List.mem_append_right _ hn))
    (Path.foldl_join_ne_empty hne fun n hn => hnames n (List.mem_append_left _ hn)) hfault

theorem resolve_foldl_join (wf : t.WellFormed) (hpath : t.resolve path = .ok place)
    (hnode : t.at? (place ++ names) = some node)
    (hfault : pathFault? (names.foldl Path.join path) = none) :
    t.resolve (names.foldl Path.join path) = .ok (place ++ names) := by
  induction names generalizing path place with
  | nil => rwa [List.append_nil]
  | cons name rest ih =>
      have hshort : pathFault? (Path.join path name) = none :=
        pathFault?_front [name] (List.cons_ne_nil _ _)
          (fun n hn => wf.names hnode n (List.mem_append_right _ hn)) hfault
      rw [List.append_cons] at hnode ⊢
      obtain ⟨node', hstep⟩ := wf.exists_of_append hnode
      exact ih (resolve_join wf hpath hstep hshort) hnode hfault

theorem isFile_iff : t.isFile path = true ↔
    ∃ there content, t.resolve path = .ok there ∧ t.at? there = some (.file content) := by
  rw [isFile, node_eq]
  rcases t.resolve path with e | there
  · simp [Except.bind]
  · rcases hnode : t.at? there with _ | ⟨content | _⟩ <;> simp [Except.bind, hnode]

theorem isDirectory_iff : t.isDirectory path = true ↔
    ∃ there, t.resolve path = .ok there ∧ t.at? there = some .directory := by
  rw [isDirectory, node_eq]
  rcases t.resolve path with e | there
  · simp [Except.bind]
  · rcases hnode : t.at? there with _ | ⟨content | _⟩ <;> simp [Except.bind, hnode]

theorem isDirectory_foldl_join_iff (wf : t.WellFormed) (hpath : t.resolve path = .ok place)
    (hnode : t.at? (place ++ names) = some .directory) :
    t.isDirectory (names.foldl Path.join path) = true ↔
      pathFault? (names.foldl Path.join path) = none := by
  constructor
  · intro h
    obtain ⟨there, hresolve, -⟩ := isDirectory_iff.mp h
    exact pathFault?_of_resolve hresolve
  · intro hfault
    exact isDirectory_iff.mpr ⟨_, resolve_foldl_join wf hpath hnode hfault, hnode⟩

theorem isFile_foldl_join_iff (wf : t.WellFormed) (hpath : t.resolve path = .ok place)
    {content : ByteArray} (hfile : t.at? (place ++ names) = some (.file content)) :
    t.isFile (names.foldl Path.join path) = true ↔
      pathFault? (names.foldl Path.join path) = none := by
  constructor
  · intro h
    obtain ⟨there, content, hresolve, -⟩ := isFile_iff.mp h
    exact pathFault?_of_resolve hresolve
  · intro hfault
    exact isFile_iff.mpr ⟨_, content, resolve_foldl_join wf hpath hfile hfault, hfile⟩

private theorem mem_below_of_at? (hne : names ≠ []) (h : t.at? (place ++ names) = some node) :
    (names, node) ∈ t.below place := by
  rw [at?, if_neg (by simp [hne])] at h
  refine List.mem_filterMap.mpr
    ⟨(place ++ names, node), Std.ExtTreeMap.mem_toList_iff_getElem?_eq_some.mpr h, ?_⟩
  have hlength : 0 < names.length := List.length_pos_iff.mpr hne
  simp [hlength]

end Names

end FileTree

/-! ## Eligible files -/

namespace Batch

open FileTree (isFile_foldl_join_iff)

/-- A file that a batch may take up: a source by its name, found by `names` from the directory
that stands at `place`, and with a path that is not too long to be followed. -/
structure Eligible (t : FileTree) (place : Location) (directory : String) (recursive : Bool)
    (f : String) (names : Location) : Prop where
  file : ∃ content, t.at? (place ++ names) = some (.file content)
  depth : recursive = true ∨ names.length = 1
  isSourceName : ∃ last, names.getLast? = some last ∧ IsSourceName last
  path_eq : f = names.foldl Path.join directory
  followed : FileTree.pathFault? f = none

variable {t : FileTree} {place names : Location} {directory f : String} {recursive : Bool}

namespace Eligible

theorem ne_nil (e : Eligible t place directory recursive f names) : names ≠ [] := by
  obtain ⟨last, hlast, -⟩ := e.isSourceName
  rintro rfl
  cases hlast

theorem isName (e : Eligible t place directory recursive f names) (wf : t.WellFormed) :
    ∀ n ∈ names, IsName n := by
  obtain ⟨content, hfile⟩ := e.file
  exact fun n hn => wf.names hfile n (List.mem_append_right _ hn)

theorem steps_eq (e : Eligible t place directory recursive f names) (wf : t.WellFormed) :
    steps f = steps directory ++ names := by
  rw [e.path_eq, Path.foldl_join directory (e.isName wf)]

theorem isSource (e : Eligible t place directory recursive f names) (wf : t.WellFormed) :
    Path.isSource f = true := by
  rw [e.path_eq]
  exact (Path.isSource_foldl_join_iff directory (e.isName wf) e.ne_nil).mpr e.isSourceName

theorem isFile (e : Eligible t place directory recursive f names) (wf : t.WellFormed)
    (hdirectory : t.resolve directory = .ok place) : t.isFile f = true := by
  obtain ⟨content, hfile⟩ := e.file
  rw [e.path_eq]
  exact (isFile_foldl_join_iff wf hdirectory hfile).mpr (e.path_eq ▸ e.followed)

end Eligible

theorem mem_sources_iff (wf : t.WellFormed) (hdirectory : t.resolve directory = .ok place) :
    f ∈ sources t directory recursive ↔
      ∃ names, Eligible t place directory recursive f names := by
  rw [sources, hdirectory]
  simp only [List.mem_filterMap, Prod.exists]
  constructor
  · rintro ⟨names, node, hmem, htaken⟩
    obtain ⟨hne, hnode⟩ := FileTree.mem_below hmem
    have hnames : ∀ n ∈ names, IsName n := fun n hn =>
      wf.names hnode n (List.mem_append_right _ hn)
    rcases node with content | _
    · simp only [Bool.and_eq_true, Bool.or_eq_true, decide_eq_true_eq] at htaken
      split at htaken
      · next hkeep =>
          obtain ⟨⟨hdepth, hsource⟩, hfile⟩ := hkeep
          obtain rfl := Option.some.inj htaken
          exact ⟨names, ⟨content, hnode⟩, hdepth,
            (Path.isSource_foldl_join_iff directory hnames hne).mp hsource, rfl,
            (isFile_foldl_join_iff wf hdirectory hnode).mp hfile⟩
      · cases htaken
    · cases htaken
  · rintro ⟨names, e⟩
    obtain ⟨content, hfile⟩ := e.file
    have hsource := e.isSource wf
    have hisFile := e.isFile wf hdirectory
    obtain rfl := e.path_eq
    exact ⟨names, .file content, FileTree.mem_below_of_at? e.ne_nil hfile,
      by simp [hsource, hisFile, e.depth]⟩

theorem nodup_sources (wf : t.WellFormed) (directory : String) (recursive : Bool) :
    (sources t directory recursive).Nodup :=
  nodup_of_apart (pairwise_apart_sources wf directory recursive)

/-! ## Directories on the way -/

/-- A directory that a search goes through: `names` lead there from the directory that stands at
`place`, and the path is not too long to be followed. -/
structure Walked (t : FileTree) (place : Location) (directory : String) (recursive : Bool)
    (d : String) (names : Location) : Prop where
  node : t.at? (place ++ names) = some .directory
  depth : recursive = true ∨ names = []
  path_eq : d = names.foldl Path.join directory
  followed : FileTree.pathFault? d = none

theorem mem_listed_iff (wf : t.WellFormed) (hdirectory : t.resolve directory = .ok place)
    (hplace : t.at? place = some .directory) {d : String} :
    d ∈ listed t directory recursive ↔ ∃ names, Walked t place directory recursive d names := by
  rw [listed, hdirectory]
  simp only [List.mem_cons, List.mem_filterMap, Prod.exists]
  constructor
  · rintro (rfl | ⟨names, node, hmem, htaken⟩)
    · exact ⟨[], by simpa using hplace, .inr rfl, rfl, FileTree.pathFault?_of_resolve hdirectory⟩
    · obtain ⟨-, hnode⟩ := FileTree.mem_below hmem
      rcases node with content | _
      · cases htaken
      · simp only [Bool.and_eq_true] at htaken
        split at htaken
        · next hkeep =>
            obtain rfl := Option.some.inj htaken
            exact ⟨names, hnode, .inl hkeep.1, rfl,
              (FileTree.isDirectory_foldl_join_iff wf hdirectory hnode).mp hkeep.2⟩
        · cases htaken
  · rintro ⟨names, w⟩
    by_cases hnames : names = []
    · subst hnames
      exact .inl w.path_eq
    · obtain rfl := w.path_eq
      have hisDirectory := (FileTree.isDirectory_foldl_join_iff wf hdirectory w.node).mpr w.followed
      exact .inr ⟨names, .directory, FileTree.mem_below_of_at? hnames w.node,
        by simp [w.depth.resolve_right hnames, hisDirectory]⟩

end Batch

/-! ## Listings -/

namespace FileTree

variable {t : FileTree} {place : Location}

/-- The names in each directory, once each and in the order in which they are listed. -/
structure Listing (t : FileTree) where
  names : Location → List String
  nodup : ∀ place, (names place).Nodup
  mem_names : ∀ place name, name ∈ names place ↔ ∃ node, t.at? (place ++ [name]) = some node

/-- The name of what stands in a directory and not further below. -/
def nameWithin? (entry : Location × Node) : Option String :=
  match entry.1 with
  | [name] => some name
  | _ => none

private theorem nameWithin?_eq_some {entry : Location × Node} {name : String} :
    nameWithin? entry = some name ↔ entry.1 = [name] := by
  rw [nameWithin?]
  split <;> simp_all

/-- Names in the order in which the tree keeps them. -/
def Listing.kept (t : FileTree) : t.Listing where
  names place := (t.below place).filterMap nameWithin?
  nodup place := by
    rw [List.Nodup, List.pairwise_filterMap]
    refine (t.pairwise_below place).imp ?_
    rintro a b hne name hname other hother rfl
    rw [nameWithin?_eq_some] at hname hother
    exact hne (hname.trans hother.symm)
  mem_names place name := by
    simp only [List.mem_filterMap, nameWithin?_eq_some, Prod.exists]
    constructor
    · rintro ⟨_, node, hmem, rfl⟩
      exact ⟨node, (mem_below hmem).2⟩
    · rintro ⟨node, hnode⟩
      exact ⟨[name], node, mem_below_of_at? (List.cons_ne_nil _ _) hnode, rfl⟩

def height (t : FileTree) : Nat := t.entries.keys.toFinset.sup List.length

private theorem length_le_height {node : Node} (h : t.at? place = some node) :
    place.length ≤ t.height := by
  by_cases hplace : place = []
  · simp [hplace]
  · apply Finset.le_sup (f := List.length)
    rw [at?, if_neg (by simpa using hplace)] at h
    rw [List.mem_toFinset, Std.ExtTreeMap.mem_keys]
    exact Std.ExtTreeMap.mem_iff_isSome_getElem?.mpr (by simp [h])

namespace Listing

open CInventory.Batch (Eligible Walked sources listingError? mem_sources_iff nodup_sources)

variable {path f : String} {recursive : Bool}

theorem height_lt (l : t.Listing) {name : String} (h : name ∈ l.names place) :
    t.height - (place ++ [name]).length < t.height - place.length := by
  obtain ⟨node, hnode⟩ := (l.mem_names place name).mp h
  have hle := length_le_height hnode
  rw [List.length_append, List.length_singleton] at hle ⊢
  omega

/-! ## What a walk meets -/

/-- The paths of everything that a walk meets in the directory at `place`, which is reached by
`path`. -/
def met (l : t.Listing) (recursive : Bool) (place : Location) (path : String) : List String :=
  (l.names place).attach.flatMap fun ⟨name, _⟩ =>
    let entry := Path.join path name
    entry ::
      if t.isDirectory entry && recursive then l.met recursive (place ++ [name]) entry else []
termination_by t.height - place.length
decreasing_by exact l.height_lt ‹_›

/-- What a walk meets under one name in a directory. -/
def entry (l : t.Listing) (recursive : Bool) (place : Location) (path name : String) :
    List String :=
  Path.join path name ::
    if t.isDirectory (Path.join path name) && recursive then
      l.met recursive (place ++ [name]) (Path.join path name)
    else []

/-- A walk from `place` meets what `names` lead to: the directories in front of the last name can
be followed, and the walk goes into them. -/
structure Met (t : FileTree) (place : Location) (path : String) (recursive : Bool) (p : String)
    (names : Location) : Prop where
  ne_nil : names ≠ []
  there : ∃ node, t.at? (place ++ names) = some node
  depth : recursive = true ∨ names.length = 1
  path_eq : p = names.foldl Path.join path
  followed : ∀ front back, names = front ++ back → front ≠ [] → back ≠ [] →
    pathFault? (front.foldl Path.join path) = none

namespace Met

variable {p name : String} {names : Location}

theorem isName (m : Met t place path recursive p names) (wf : t.WellFormed) :
    ∀ n ∈ names, IsName n := by
  obtain ⟨node, hnode⟩ := m.there
  exact fun n hn => wf.names hnode n (List.mem_append_right _ hn)

theorem steps_eq (m : Met t place path recursive p names) (wf : t.WellFormed) :
    steps p = steps path ++ names := by
  rw [m.path_eq, Path.foldl_join path (m.isName wf)]

theorem head {node : Node} (h : t.at? (place ++ [name]) = some node) :
    Met t place path recursive (Path.join path name) [name] where
  ne_nil := List.cons_ne_nil _ _
  there := ⟨node, h⟩
  depth := .inr rfl
  path_eq := rfl
  followed front back heq hfront hback := by
    rcases front with _ | ⟨first, front⟩
    · exact absurd rfl hfront
    · rw [List.cons_append, List.cons.injEq] at heq
      exact absurd (List.append_eq_nil_iff.mp heq.2.symm).2 hback

/-- What is met below a directory that can be followed is met from above. -/
theorem cons (m : Met t (place ++ [name]) (Path.join path name) true p names)
    (hfault : pathFault? (Path.join path name) = none) :
    Met t place path true p (name :: names) where
  ne_nil := List.cons_ne_nil _ _
  there := by simpa using m.there
  depth := .inl rfl
  path_eq := m.path_eq
  followed front back heq hfront hback := by
    rcases front with _ | ⟨first, front⟩
    · exact absurd rfl hfront
    rw [List.cons_append, List.cons.injEq] at heq
    obtain ⟨rfl, heq⟩ := heq
    by_cases hrest : front = []
    · subst hrest
      exact hfault
    · exact m.followed front back heq hrest hback

/-- What is met further down is met by a walk through the directory of the first name. -/
theorem tail (m : Met t place path recursive p (name :: names)) (hne : names ≠ []) :
    recursive = true ∧ pathFault? (Path.join path name) = none ∧
      Met t (place ++ [name]) (Path.join path name) true p names := by
  refine ⟨?_, m.followed [name] names rfl (List.cons_ne_nil _ _) hne, hne, ?_, .inl rfl,
    m.path_eq, ?_⟩
  · rcases m.depth with hrecursive | hlength
    · exact hrecursive
    · exact absurd (List.length_eq_zero_iff.mp (Nat.succ.inj hlength)) hne
  · simpa using m.there
  · intro front back heq _ hback
    exact m.followed (name :: front) back (by rw [heq, List.cons_append]) (List.cons_ne_nil _ _)
      hback

end Met

def files (l : t.Listing) (recursive : Bool) (place : Location) (path : String) : List String :=
  (l.met recursive place path).filter fun p => t.isFile p && Path.isSource p

end Listing

end FileTree

end CInventory
