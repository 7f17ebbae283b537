import Mathlib
import CInventory.Proofs.BatchOutput
import CInventory.Proofs.Traversal

/-!
# The files of a batch

A batch takes up the eligible files below its directory in the order of their paths, the first of
them if not all are wanted. How many there may be is decided before some are left out. None of
them is refused later for its path.
-/

namespace CInventory

open Diagnostic
open CInventory.Path (IsName IsSourceName steps pieces LastLeads)

/-! ## Reading a file that was found -/

namespace SourceFile

end SourceFile

/-! ## All eligible files, in order -/

namespace Batch

variable {t : FileTree} {place names : Location} {directory f g : String} {recursive : Bool}

def eligibleFiles (t : FileTree) (directory : String) (recursive : Bool) : Set String :=
  {f | ∃ place names, t.resolve directory = .ok place ∧
    Eligible t place directory recursive f names}

theorem mem_sortedSources_iff (wf : t.WellFormed) :
    f ∈ sortedSources t directory recursive ↔ f ∈ eligibleFiles t directory recursive := by
  rw [(sortedSources_perm t directory recursive).mem_iff, eligibleFiles, Set.mem_ofPred_eq]
  rcases hresolve : t.resolve directory with e | place
  · simp [sources, hresolve]
  · simp [mem_sources_iff wf hresolve]

theorem nodup_sortedSources (wf : t.WellFormed) (directory : String) (recursive : Bool) :
    (sortedSources t directory recursive).Nodup :=
  (sortedSources_perm t directory recursive).nodup_iff.mpr (nodup_sources wf directory recursive)

theorem ncard_eligibleFiles (wf : t.WellFormed) (directory : String) (recursive : Bool) :
    (eligibleFiles t directory recursive).ncard = (sources t directory recursive).length := by
  have hset : eligibleFiles t directory recursive =
      ((sortedSources t directory recursive).toFinset : Set String) := by
    ext f
    rw [← mem_sortedSources_iff wf, Finset.mem_coe, List.mem_toFinset]
  rw [hset, Set.ncard_coe_finset,
    List.toFinset_card_of_nodup (nodup_sortedSources wf directory recursive),
    (sortedSources_perm t directory recursive).length_eq]

def walkedDirectories (t : FileTree) (directory : String) (recursive : Bool) : Set String :=
  {d | ∃ place names, t.resolve directory = .ok place ∧
    Walked t place directory recursive d names}

/-- Every directory that a batch goes through can be listed. -/
def Listable (host : Host) (t : FileTree) (directory : String) (recursive : Bool) : Prop :=
  ∀ d ∈ walkedDirectories t directory recursive, host.listingFault? d = none

section Listing

variable {host : Host} {directories : List String}

theorem listingError?_eq_none_iff_listable
    (h : ∀ d, d ∈ directories ↔ d ∈ walkedDirectories t directory recursive) :
    listingError? host directories = none ↔ Listable host t directory recursive := by
  simp only [listingError?_eq_none_iff, h, Listable]

theorem mem_walkedDirectories_iff (hresolve : t.resolve directory = .ok place) :
    f ∈ walkedDirectories t directory recursive ↔
      ∃ names, Walked t place directory recursive f names := by
  simp [walkedDirectories, hresolve]

theorem mem_listed_iff_walked (wf : t.WellFormed) (hdirectory : t.isDirectory directory = true)
    (recursive : Bool) (d : String) :
    d ∈ listed t directory recursive ↔ d ∈ walkedDirectories t directory recursive := by
  obtain ⟨place, hresolve, hplace⟩ := FileTree.isDirectory_iff.mp hdirectory
  rw [mem_listed_iff wf hresolve hplace, mem_walkedDirectories_iff hresolve]

theorem listed_iff_listable (wf : t.WellFormed) (hdirectory : t.isDirectory directory = true)
    (host : Host) (recursive : Bool) :
    listingError? host (listed t directory recursive) = none ↔
      Listable host t directory recursive :=
  listingError?_eq_none_iff_listable (mem_listed_iff_walked wf hdirectory recursive)

end Listing

def trailing : Nat → String
  | 0 => "d"
  | n + 1 => trailing n ++ "/"

/-- The limit is on all eligible files, also on those that are left out. So it is on the files
that are wanted unless there are more files than it allows and no more are wanted than that. It is
reached only where all directories can be listed. -/
theorem limit_precedes_selection (host : Host) (config : Config) (directory : String)
    (t : FileTree) (wf : t.WellFormed) (hdirectory : t.isDirectory directory = true) {n : Nat}
    (hn : (eligibleFiles t directory config.recursive).ncard = n) (hsome : 1 ≤ n) :
    (∀ count limit, outcome (discover host config t directory) =
        .error (.tooManyFiles count limit) ↔
      Listable host t directory config.recursive ∧
        host.limits.maxFilesPerBatch < n ∧ count = n ∧ limit = host.limits.maxFilesPerBatch) ∧
    (¬ Listable host t directory config.recursive → ∃ reason,
      outcome (discover host config t directory) = .error (.ioError reason)) ∧
    (Listable host t directory config.recursive →
      (n ≤ host.limits.maxFilesPerBatch → ∃ files,
        outcome (discover host config t directory) = .ok files ∧
          files.length = config.maxFiles.elim n (min n)) ∧
      (((∃ count limit, outcome (discover host config t directory) =
            .error (.tooManyFiles count limit)) ↔
          host.limits.maxFilesPerBatch < config.maxFiles.elim n (min n)) ↔
        ¬ (host.limits.maxFilesPerBatch < n ∧
          ∃ m ≤ host.limits.maxFilesPerBatch, config.maxFiles = some m))) := by
  have hlength : (sortedSources t directory config.recursive).length = n := by
    rw [(sortedSources_perm t directory config.recursive).length_eq, ← ncard_eligibleFiles wf, hn]
  have hlisted := listed_iff_listable wf hdirectory host config.recursive
  refine ⟨?_, ?_, ?_⟩
  · intro count limit
    rw [discover_tooManyFiles_iff, hlength, hlisted]
    simp [hdirectory]
  · intro hclosed
    obtain ⟨e, herror⟩ := Option.ne_none_iff_exists'.mp (hlisted.not.mpr hclosed)
    obtain ⟨reason, rfl⟩ := ioError_of_listingError? herror
    exact ⟨reason, discover_ioError_iff.mpr ⟨hdirectory, herror⟩⟩
  intro hopen
  have hnone := hlisted.mpr hopen
  constructor
  · intro hfew
    have hne : sortedSources t directory config.recursive ≠ [] := by
      rw [← List.length_pos_iff]
      omega
    refine ⟨_, discover_ok_iff.mpr ⟨hdirectory, hnone, hne, by omega, rfl⟩, ?_⟩
    rcases config.maxFiles with _ | m
    · exact hlength
    · rw [Option.elim_some, Option.elim_some, List.length_take, hlength, Nat.min_comm]
  · simp only [discover_tooManyFiles_iff, hlength, hdirectory, hnone, true_and, exists_and_left,
      exists_eq, and_true]
    rcases config.maxFiles with _ | m
    · simp
    · simp only [Option.elim_some, lt_min_iff, Option.some.injEq, exists_eq_right']
      omega

private theorem sources_twoSources :
    sources twoSources "d" true = ["d/a.c", "d/b.c"] := by decide +kernel

def oneFileHost : Host := { limits := { Limits.development with maxFilesPerBatch := 1 } }

theorem limit_precedes_selection_twoSources :
    twoSources.WellFormed ∧ twoSources.isDirectory "d" = true ∧
    (eligibleFiles twoSources "d" true).ncard = 2 ∧
    (∃ files, outcome (discover {} { workers := 1, maxFiles := some 1 } twoSources "d") =
      .ok files ∧ files.length = 1) ∧
    ∃ count limit, outcome (discover oneFileHost { workers := 1 } twoSources "d") =
      .error (.tooManyFiles count limit) := by
  have hdirectory : twoSources.isDirectory "d" = true := by decide +kernel
  have hcount : (eligibleFiles twoSources "d" true).ncard = 2 := by
    rw [ncard_eligibleFiles wellFormed_twoSources, sources_twoSources]
    rfl
  refine ⟨wellFormed_twoSources, hdirectory, hcount, ?_, 2, 1, ?_⟩
  · exact ((limit_precedes_selection {} { workers := 1, maxFiles := some 1 } "d" twoSources
      wellFormed_twoSources hdirectory hcount (by decide)).2.2 (fun _ _ => rfl)).1 (by decide)
  · exact ((limit_precedes_selection oneFileHost { workers := 1 } "d" twoSources
      wellFormed_twoSources hdirectory hcount (by decide)).1 2 1).mpr
        ⟨fun _ _ => rfl, by decide, rfl, rfl⟩

/-- So asking for no more files than the limit allows does not help. -/
theorem wanted_file_refused :
    oneFileHost.limits.validate "development" = .ok () ∧ twoSources.WellFormed ∧
    (eligibleFiles twoSources "d" true).ncard = 2 ∧
    min 2 1 ≤ oneFileHost.limits.maxFilesPerBatch ∧
    outcome (discover oneFileHost { workers := 1, maxFiles := some 1 } twoSources "d") =
      .error (.tooManyFiles 2 1) := by
  have hlength : (sortedSources twoSources "d" true).length = 2 := by
    rw [(sortedSources_perm twoSources "d" true).length_eq, sources_twoSources]
    rfl
  refine ⟨rfl, wellFormed_twoSources, ?_, by decide, ?_⟩
  · rw [ncard_eligibleFiles wellFormed_twoSources, sources_twoSources]
    rfl
  · have hmany : 1 < (sortedSources twoSources "d" true).length := by rw [hlength]; decide
    exact discover_tooManyFiles_iff.mpr ⟨by decide +kernel,
      listingError?_eq_none_iff.mpr fun _ _ => rfl, hmany, hlength.symm, rfl⟩

end Batch

end CInventory
