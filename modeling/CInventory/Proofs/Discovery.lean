import Mathlib
import CInventory.Batch
import CInventory.Proofs.Directories
import CInventory.Proofs.Values

/-!
# Discovered sources

Discovery lists the sources below a directory in the order of their components. Each of them is
the directory followed by the names below it, and no source's names lead on to another source,
because a file holds nothing.
-/

namespace CInventory

open Diagnostic
open CInventory.Path (IsName steps)

theorem FileTree.WellFormed.names {t : FileTree} (wf : t.WellFormed) {place : Location}
    {node : Node} (h : t.at? place = some node) : ∀ n ∈ place, IsName n := by
  induction place using List.reverseRecOn generalizing node with
  | nil => simp
  | append_singleton front name ih =>
      intro n hn
      rcases List.mem_append.mp hn with hn | hn
      · exact ih (wf.parent h) n hn
      · obtain rfl := List.mem_singleton.mp hn
        exact (wf.isName h).1

theorem FileTree.mem_below {t : FileTree} {place names : Location} {node : Node}
    (h : (names, node) ∈ t.below place) :
    names ≠ [] ∧ t.at? (place ++ names) = some node := by
  obtain ⟨⟨there, node'⟩, hmem, hbelow⟩ := List.mem_filterMap.mp h
  simp only [Bool.and_eq_true, List.isPrefixOf_iff_prefix, decide_eq_true_eq] at hbelow
  split at hbelow
  · next hfound =>
      obtain ⟨⟨back, rfl⟩, hlength⟩ := hfound
      simp only [List.drop_left, Option.some.injEq, Prod.mk.injEq] at hbelow
      obtain ⟨rfl, rfl⟩ := hbelow
      have hne : back ≠ [] := by
        rintro rfl
        simp at hlength
      rw [Std.ExtTreeMap.mem_toList_iff_getElem?_eq_some] at hmem
      exact ⟨hne, by simpa [FileTree.at?, hne] using hmem⟩
  · cases hbelow

theorem FileTree.pairwise_below (t : FileTree) (place : Location) :
    (t.below place).Pairwise fun a b => a.1 ≠ b.1 := by
  rw [FileTree.below, List.pairwise_filterMap]
  apply t.entries.distinct_keys_toList.imp
  rintro ⟨p, node⟩ ⟨q, node'⟩ hne ⟨names, _⟩ hp ⟨names', _⟩ hq
  rw [Std.compare_eq_iff_eq] at hne
  simp only [Bool.and_eq_true, List.isPrefixOf_iff_prefix, decide_eq_true_eq] at hp hq
  split at hp
  · next hfound =>
      split at hq
      · next hfound' =>
          obtain ⟨⟨back, rfl⟩, -⟩ := hfound
          obtain ⟨⟨back', rfl⟩, -⟩ := hfound'
          simp only [List.drop_left, Option.some.injEq, Prod.mk.injEq] at hp hq
          obtain ⟨rfl, -⟩ := hp
          obtain ⟨rfl, -⟩ := hq
          exact fun heq => hne (congrArg (place ++ ·) heq)
      · cases hq
  · cases hp

namespace Batch

/-- Neither path leads on to the other. -/
def Apart (f g : String) : Prop := ¬ steps f <+: steps g ∧ ¬ steps g <+: steps f

theorem Apart.symm {f g : String} (h : Apart f g) : Apart g f := ⟨h.2, h.1⟩

theorem nodup_of_apart {files : List String} (h : files.Pairwise Apart) : files.Nodup := by
  refine h.imp ?_
  rintro f _ happart rfl
  exact happart.1 (List.prefix_refl _)

structure IsSourceBelow (t : FileTree) (directory path : String) (names : Location) : Prop where
  ne_nil : names ≠ []
  isName : ∀ n ∈ names, IsName n
  path_eq : path = names.foldl Path.join directory
  isSource : Path.isSource path = true
  isFile : t.isFile path = true

structure Discovered (t : FileTree) (directory : String) (files : List String) : Prop where
  directory_ne : directory ≠ ""
  source : ∀ f ∈ files, ∃ names, IsSourceBelow t directory f names
  apart : files.Pairwise Apart
  sorted : files.Pairwise fun f g => Path.compare f g ≠ .gt

private theorem taken_of_eq_some {t : FileTree} {directory f : String} {recursive : Bool}
    {names : Location} {node : Node}
    (h : (match node with
      | .directory => none
      | .file _ =>
        if (recursive || names.length = 1) && Path.isSource (names.foldl Path.join directory) &&
            t.isFile (names.foldl Path.join directory) then
          some (names.foldl Path.join directory)
        else none) = some f) :
    (∃ c, node = .file c) ∧ f = names.foldl Path.join directory ∧
      Path.isSource f = true ∧ t.isFile f = true := by
  rcases node with c | _
  · simp only [Bool.and_eq_true] at h
    split at h
    · next hkeep =>
        obtain rfl := Option.some.inj h
        exact ⟨⟨c, rfl⟩, rfl, hkeep.1.2, hkeep.2⟩
    · cases h
  · cases h

theorem source_of_mem_sources {t : FileTree} (wf : t.WellFormed) {directory f : String}
    {recursive : Bool} (h : f ∈ sources t directory recursive) :
    ∃ names, IsSourceBelow t directory f names := by
  rw [sources] at h
  split at h
  · cases h
  · obtain ⟨⟨names, node⟩, hmem, hf⟩ := List.mem_filterMap.mp h
    obtain ⟨hne, hnode⟩ := FileTree.mem_below hmem
    obtain ⟨-, hpath, hsource, hfile⟩ := taken_of_eq_some hf
    have hnames : ∀ n ∈ names, IsName n := fun n hn =>
      wf.names hnode n (List.mem_append_right _ hn)
    exact ⟨names, hne, hnames, hpath, hsource, hfile⟩

theorem pairwise_apart_sources {t : FileTree} (wf : t.WellFormed) (directory : String)
    (recursive : Bool) : (sources t directory recursive).Pairwise Apart := by
  rw [sources]
  split
  · exact List.Pairwise.nil
  · next place _ =>
      rw [List.pairwise_filterMap]
      apply (t.pairwise_below place).imp_of_mem
      rintro ⟨names, node⟩ ⟨names', node'⟩ hmem hmem' hne f hf f' hf'
      obtain ⟨-, hnode⟩ := FileTree.mem_below hmem
      obtain ⟨-, hnode'⟩ := FileTree.mem_below hmem'
      obtain ⟨⟨c, rfl⟩, rfl, -, -⟩ := taken_of_eq_some hf
      obtain ⟨⟨c', rfl⟩, rfl, -, -⟩ := taken_of_eq_some hf'
      have hnames : ∀ n ∈ names, IsName n := fun n hn =>
        wf.names hnode n (List.mem_append_right _ hn)
      have hnames' : ∀ n ∈ names', IsName n := fun n hn =>
        wf.names hnode' n (List.mem_append_right _ hn)
      rw [Apart, Path.foldl_join directory hnames, Path.foldl_join directory hnames',
        List.prefix_append_right_inj, List.prefix_append_right_inj]
      -- What stands above an entry is a directory, so no file does.
      constructor
      · intro hprefix
        have hdir := wf.of_isPrefix hnode' ((List.prefix_append_right_inj place).mpr hprefix)
          fun heq => hne (List.append_cancel_left heq)
        rw [hnode] at hdir
        cases hdir
      · intro hprefix
        have hdir := wf.of_isPrefix hnode ((List.prefix_append_right_inj place).mpr hprefix)
          fun heq => hne (List.append_cancel_left heq).symm
        rw [hnode'] at hdir
        cases hdir

/-! ## Order -/

theorem byPath_perm (files : List String) : (byPath files).Perm files := by
  have hperm := ((List.mergeSort_perm (files.map fun path => (Path.components path, path))
    fun a b => compare a.1 b.1 != .gt).map Prod.snd)
  rwa [List.map_map, show (Prod.snd ∘ fun path => (Path.components path, path)) = id from rfl,
    List.map_id] at hperm

theorem pairwise_byPath (files : List String) :
    (byPath files).Pairwise fun f g => Path.compare f g ≠ .gt := by
  rw [byPath, List.pairwise_map]
  have hkeyed := List.mergeSort_perm (files.map fun path => (Path.components path, path))
    fun a b => compare a.1 b.1 != .gt
  have hkey : ∀ a ∈ (files.map fun path => (Path.components path, path)).mergeSort
      fun a b => compare a.1 b.1 != .gt, a.1 = Path.components a.2 := by
    intro a ha
    obtain ⟨path, -, rfl⟩ := List.mem_map.mp (hkeyed.mem_iff.mp ha)
    rfl
  refine (List.pairwise_mergeSort ?_ ?_ _).imp_of_mem ?_
  · intro a b c hab hbc
    simp only [bne_iff_ne] at hab hbc ⊢
    exact Std.TransCmp.le_trans hab hbc
  · intro a b
    have hswap : compare a.1 b.1 = (compare b.1 a.1).swap := Std.OrientedCmp.eq_swap
    rw [hswap]
    cases compare b.1 a.1 <;> rfl
  · intro a b ha hb hab
    rw [Path.compare, ← hkey a ha, ← hkey b hb]
    simpa using hab

theorem byPath_of_pairwise {files : List String}
    (h : (files.map fun path => (Path.components path, path)).Pairwise
      fun a b => (compare a.1 b.1 != .gt) = true) : byPath files = files := by
  rw [byPath, List.mergeSort_of_pairwise h, List.map_map]
  exact List.map_id files

def sortedSources (t : FileTree) (directory : String) (recursive : Bool) : List String :=
  byPath (sources t directory recursive)

theorem sortedSources_perm (t : FileTree) (directory : String) (recursive : Bool) :
    (sortedSources t directory recursive).Perm (sources t directory recursive) :=
  byPath_perm _

theorem pairwise_sortedSources (t : FileTree) (directory : String) (recursive : Bool) :
    (sortedSources t directory recursive).Pairwise fun f g => Path.compare f g ≠ .gt :=
  pairwise_byPath _

/-! ## What discovery answers -/

private theorem outcome_checkListing (host : Host) (path : String) :
    outcome (checkListing host path) =
      ((host.listingFault? path).map (Error.ofListing path)).elim (.ok ()) .error := by
  unfold checkListing
  rcases host.listingFault? path with _ | fault
  · rfl
  · cases fault <;> rfl

/-- The error at the first directory of a search that cannot be listed. -/
def listingError? (host : Host) (paths : List String) : Option Error :=
  paths.findSome? fun path => (host.listingFault? path).map (Error.ofListing path)

theorem outcome_checkListings (host : Host) (paths : List String) :
    outcome (paths.forM (checkListing host)) = (listingError? host paths).elim (.ok ()) .error := by
  induction paths with
  | nil => rfl
  | cons path paths ih =>
      change outcome (checkListing host path >>= fun _ => paths.forM (checkListing host)) = _
      rw [outcome_bind, outcome_checkListing, listingError?, List.findSome?_cons]
      rcases (host.listingFault? path).map (Error.ofListing path) with _ | e
      · exact ih
      · rfl

/-- Discovery asks for a directory, for directories that can be listed, for some source and for
no more sources than a batch may have. -/
theorem outcome_discover (host : Host) (config : Config) (t : FileTree) (directory : String) :
    outcome (discover host config t directory) =
      let all := sortedSources t directory config.recursive
      if t.isDirectory directory = true then
        (listingError? host (listed t directory config.recursive)).elim
          (if all = [] then .error (.noFilesFound directory)
          else if host.limits.maxFilesPerBatch < all.length then
            .error (.tooManyFiles all.length host.limits.maxFilesPerBatch)
          else .ok (config.maxFiles.elim all fun m => all.take m)) .error
      else .error (.directoryNotFound directory) := by
  have hlength := (sortedSources_perm t directory config.recursive).length_eq
  have hempty : (sources t directory config.recursive).isEmpty = true ↔
      sortedSources t directory config.recursive = [] := by
    rw [List.isEmpty_iff, ← List.length_eq_zero_iff, ← List.length_eq_zero_iff, hlength]
  unfold discover
  rw [outcome_bind, say, outcome_lift, bind_ok]
  rcases t.isDirectory directory with _ | _
  · rfl
  simp only [Bool.not_true, Bool.false_eq_true, if_false, if_true]
  rw [outcome_bind, outcome_checkListings]
  rcases listingError? host (listed t directory config.recursive) with _ | e
  swap
  · rfl
  simp only [Option.elim_none, bind_ok]
  by_cases hnone : sortedSources t directory config.recursive = []
  · rw [if_pos (hempty.mpr hnone), if_pos hnone]
    rfl
  rw [if_neg (hempty.not.mpr hnone), if_neg hnone, ← hlength]
  by_cases hmany : host.limits.maxFilesPerBatch <
      (sortedSources t directory config.recursive).length
  · rw [if_pos hmany, if_pos hmany]
    rfl
  rw [if_neg hmany, if_neg hmany]
  cases config.maxFiles with
  | none => rfl
  | some limit =>
      change outcome (if (sortedSources t directory config.recursive).length > limit then _
        else _) = _
      by_cases hlong : (sortedSources t directory config.recursive).length > limit
      · rw [if_pos hlong]
        rfl
      · rw [if_neg hlong]
        exact congrArg Except.ok (List.take_of_length_le (Nat.le_of_not_lt hlong)).symm

section Answers

variable {host : Host} {config : Config} {t : FileTree} {directory : String}

theorem listingError?_eq_some {paths : List String} {e : Error}
    (h : listingError? host paths = some e) :
    ∃ path ∈ paths, ∃ fault, host.listingFault? path = some fault ∧ e = .ofListing path fault := by
  obtain ⟨path, hmem, hfault⟩ := List.exists_of_findSome?_eq_some h
  obtain ⟨fault, hsome, rfl⟩ := Option.map_eq_some_iff.mp hfault
  exact ⟨path, hmem, fault, hsome, rfl⟩

theorem listingError?_eq_none_iff {paths : List String} :
    listingError? host paths = none ↔ ∀ path ∈ paths, host.listingFault? path = none := by
  simp [listingError?, List.findSome?_eq_none_iff]

theorem ioError_of_listingError? {paths : List String} {e : Error}
    (h : listingError? host paths = some e) : ∃ reason, e = .ioError reason := by
  obtain ⟨path, -, fault, -, rfl⟩ := listingError?_eq_some h
  cases fault <;> exact ⟨_, rfl⟩

theorem discover_ok_iff {files : List String} :
    outcome (discover host config t directory) = .ok files ↔
      t.isDirectory directory = true ∧
        listingError? host (listed t directory config.recursive) = none ∧
        sortedSources t directory config.recursive ≠ [] ∧
        (sortedSources t directory config.recursive).length ≤ host.limits.maxFilesPerBatch ∧
        files = config.maxFiles.elim (sortedSources t directory config.recursive) fun m =>
          (sortedSources t directory config.recursive).take m := by
  rw [outcome_discover]
  rcases listingError? host (listed t directory config.recursive) with _ | e <;>
    simp only [Option.elim_none, Option.elim_some]
  · split_ifs with hdirectory hempty hmany
    · simp [hempty]
    · simp [Nat.not_le.mpr hmany]
    · simp [hdirectory, hempty, Nat.le_of_not_lt hmany, eq_comm]
    · simp [hdirectory]
  · split_ifs <;> simp

theorem discover_tooManyFiles_iff {count limit : Nat} :
    outcome (discover host config t directory) = .error (.tooManyFiles count limit) ↔
      t.isDirectory directory = true ∧
        listingError? host (listed t directory config.recursive) = none ∧
        host.limits.maxFilesPerBatch < (sortedSources t directory config.recursive).length ∧
        count = (sortedSources t directory config.recursive).length ∧
        limit = host.limits.maxFilesPerBatch := by
  rw [outcome_discover]
  rcases hlist : listingError? host (listed t directory config.recursive) with _ | e <;>
    simp only [Option.elim_none, Option.elim_some]
  · split_ifs with hdirectory hempty hmany
    · simp [hempty]
    · simp [hdirectory, hmany, eq_comm]
    · simp [hmany]
    · simp [hdirectory]
  · obtain ⟨reason, rfl⟩ := ioError_of_listingError? hlist
    split_ifs <;> simp

theorem discover_ioError_iff {reason : String} :
    outcome (discover host config t directory) = .error (.ioError reason) ↔
      t.isDirectory directory = true ∧
        listingError? host (listed t directory config.recursive) = some (.ioError reason) := by
  rw [outcome_discover]
  rcases listingError? host (listed t directory config.recursive) with _ | e <;>
    simp only [Option.elim_none, Option.elim_some]
  · split_ifs <;> simp
  · split_ifs with hdirectory <;> simp [hdirectory]

/-- A batch of all sources, where every directory can be listed. -/
theorem discover_all {files : List String} (hall : config.maxFiles = none)
    (hlists : ∀ path, host.listingFault? path = none) (hdirectory : t.isDirectory directory = true)
    (hsources : sortedSources t directory config.recursive = files) (hne : files ≠ [])
    (hfew : files.length ≤ host.limits.maxFilesPerBatch) :
    outcome (discover host config t directory) = .ok files := by
  subst hsources
  refine discover_ok_iff.mpr ⟨hdirectory, ?_, hne, hfew, ?_⟩
  · exact listingError?_eq_none_iff.mpr fun path _ => hlists path
  · rw [hall]
    rfl

end Answers

/-- The files of a batch are some of the sorted sources, from the first one on. -/
theorem discovered_of_discover {host : Host} {config : Config} {t : FileTree} (wf : t.WellFormed)
    {directory : String} {files : List String}
    (h : outcome (discover host config t directory) = .ok files) :
    Discovered t directory files := by
  obtain ⟨hdirectory, -, -, -, rfl⟩ := discover_ok_iff.mp h
  have hfiles : config.maxFiles.elim (sortedSources t directory config.recursive)
      (fun m => (sortedSources t directory config.recursive).take m) <+:
        sortedSources t directory config.recursive := by
    cases config.maxFiles with
    | none => exact List.prefix_refl _
    | some m => exact List.take_prefix _ _
  have hperm := sortedSources_perm t directory config.recursive
  have hsorted := pairwise_sortedSources t directory config.recursive
  have hapart := (hperm.pairwise_iff Apart.symm).mpr
    (pairwise_apart_sources wf directory config.recursive)
  refine ⟨?_, ?_, hapart.sublist hfiles.sublist, hsorted.sublist hfiles.sublist⟩
  · rintro rfl
    simp [FileTree.isDirectory_eq, FileTree.resolve, FileTree.pathFault?] at hdirectory
  · intro f hf
    exact source_of_mem_sources wf (hperm.mem_iff.mp (hfiles.subset hf))

end Batch

end CInventory
