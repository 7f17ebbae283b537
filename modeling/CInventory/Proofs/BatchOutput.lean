import Mathlib
import CInventory.Proofs.BatchOrder
import CInventory.Proofs.ReadBack
import CInventory.Proofs.SafeRuns

/-!
# Catalogs that a batch leaves

A source is the batch's directory followed by some names, and its catalog goes to the output
directory followed by the same names. No source's names lead on to another source, so neither do
their output directories. A batch processes some of its files, one after the other or in shares;
whatever the order and wherever it stops, each file that was cataloged has its catalog there, made
from the text that it had before the batch, and the sources are as they were.
-/

namespace CInventory

open Diagnostic Output
open CInventory.Path (IsName steps)

/-! ## The text that is cataloged -/

namespace SourceFile

private theorem inspect_ok {host : Host} {t : FileTree} {place : Location} {info : FileInfo}
    (h : outcome (inspect host t place) = .ok info) :
    ∃ content, t.readBytes (FileTree.locationText place) = .ok content ∧
      info = infoAt place content := by
  rw [outcome_inspect] at h
  rcases hbytes : t.readBytes (FileTree.locationText place) with e | content <;>
    rw [hbytes] at h <;> cases h
  exact ⟨content, rfl, rfl⟩

private theorem size_of_accept {host : Host} {prefs : ReadPreferences} {info : FileInfo}
    (h : outcome (accept host prefs info) = .ok ()) : info.size ≤ host.limits.maxFileSize := by
  by_contra hbig
  unfold accept at h
  rw [if_pos (Nat.lt_of_not_le hbig)] at h
  cases h

private theorem readText_of_readContent {host : Host} {t : FileTree} {path text : String}
    (h : outcome (readContent host t path) = .ok text) : t.readText path = .ok text := by
  unfold readContent at h
  rcases hread : t.readText path with e | text' <;> rw [hread] at h <;> cases h
  rfl

/-- A file that could be read is taken with the text that its path leads to, and its size is
admitted. -/
theorem read_ok {host : Host} {prefs : ReadPreferences} {t : FileTree} (wf : t.WellFormed)
    {path : String} {file : SourceFile} {place : Location} {content : ByteArray}
    (hresolve : t.resolve path = .ok place) (hnode : t.at? place = some (.file content))
    (h : outcome (read host prefs t path) = .ok file) :
    t.readText path = .ok file.text ∧ file.text.utf8ByteSize ≤ host.limits.maxFileSize := by
  have hne : place ≠ [] := by
    rintro rfl
    cases hnode
  rw [outcome_read] at h
  obtain ⟨there, hthere, h⟩ := bind_eq_ok h
  obtain rfl := Except.ok.inj (hresolve.symm.trans (locate_ok hthere).1)
  obtain ⟨info, hinfo, h⟩ := bind_eq_ok h
  obtain ⟨⟨⟩, haccept, h⟩ := bind_eq_ok h
  obtain ⟨text, htext, h⟩ := bind_eq_ok h
  obtain ⟨content', hlocated, rfl⟩ := inspect_ok hinfo
  -- The file is read through the path of its place, where the same content stands.
  obtain rfl : content' = content := by
    have hplace := FileTree.node_locationText wf hne hnode
    rw [FileTree.readBytes] at hlocated
    rcases hfault : FileTree.pathFault? (FileTree.locationText place) with _ | fault <;>
      rw [hfault] at hplace <;> rw [hplace] at hlocated <;> cases hlocated
    rfl
  have hbytes := FileTree.readBytes_eq_of_resolve hresolve hnode
  have hread := readText_of_readContent htext
  have hsize := Text.utf8ByteSize_of_fromUTF8? (FileTree.fromUTF8?_of_readText hlocated hread)
  have hadmitted : content'.size ≤ host.limits.maxFileSize := size_of_accept haccept
  change t.readText (FileTree.locationText place) = .ok text at hread
  rw [FileTree.readText, hlocated] at hread
  rw [FileTree.readText, hbytes]
  split at h
  · cases h
  · cases h
    exact ⟨hread, hsize ▸ hadmitted⟩

end SourceFile

/-! ## Where catalogs go -/

namespace FileTree

theorem place_of_arrive {t : FileTree} {place there : Location} {names : List String}
    (hnames : ∀ n ∈ names, IsName n) (h : t.arrive place names = .ok there) :
    there = place ++ names := by
  induction names generalizing place with
  | nil =>
      by_cases hplace : t.isDirectoryAt place = true
      · rw [arrive_nil t (isDirectoryAt_iff.mp hplace)] at h
        rw [List.append_nil, Except.ok.inj h]
      · rw [arrive_of_not_directory (by simpa using hplace)] at h
        cases h
  | cons n names ih =>
      rw [arrive_cons] at h
      rcases hstep : t.step place n with e | next <;> rw [hstep] at h
      · cases h
      · obtain rfl := Batch.place_of_step (hnames n List.mem_cons_self) hstep
        rw [ih (fun m hm => hnames m (List.mem_cons_of_mem _ hm)) h, List.append_assoc,
          List.singleton_append]

end FileTree

namespace Batch

section Places

variable {t : FileTree} {directory f g : String} {names names' : Location}

theorem IsSourceBelow.place_of_resolve (src : IsSourceBelow t directory f names)
    (hdirectory : directory ≠ "") {output : String} {v : FileTree} {place : Location}
    (h : v.resolve (outputDirectory output directory f) = .ok place) :
    ∃ base, v.arrive (v.origin output) (steps output) = .ok base ∧ place = base ++ names := by
  have leads := src.leadsBelow hdirectory output
  obtain ⟨front, last, hnames, hname, -⟩ := src.exists_last
  have hfront : ∀ n ∈ front, IsName n := fun n hn => src.isName n (by simp [hnames, hn])
  have hfault := FileTree.pathFault?_of_resolve h
  have hsteps := leads.steps_eq
  rw [hnames, ← List.append_assoc] at hsteps
  rw [v.resolve_of_steps hfault leads.lastLeads hsteps,
    FileTree.origin_congr rfl leads.isAbsolute_eq, FileTree.arrive_append] at h
  rcases hbase : v.arrive (v.origin output) (steps output) with e | base <;> rw [hbase] at h
  · cases h
  rcases habove : v.arrive base front with e | above <;>
    simp only [Except.bind, habove] at h
  · cases h
  · refine ⟨base, rfl, ?_⟩
    rw [place_of_step hname h, FileTree.place_of_arrive hfront habove, hnames, List.append_assoc]

/-- Output directories of two sources are apart, as paths and as places in any tree. -/
theorem IsSourceBelow.outputDirectory_apart (src : IsSourceBelow t directory f names)
    (src' : IsSourceBelow t directory g names') (hdirectory : directory ≠ "") (apart : Apart f g)
    (output : String) :
    Apart (outputDirectory output directory f) (outputDirectory output directory g) ∧
    ∀ (v : FileTree) (p q : Location),
      v.resolve (outputDirectory output directory f) = .ok p →
      v.resolve (outputDirectory output directory g) = .ok q → ¬ p <+: q ∧ ¬ q <+: p := by
  obtain ⟨hnames, hnames'⟩ := src.names_apart src' apart
  constructor
  · rw [Apart, (src.leadsBelow hdirectory output).steps_eq,
      (src'.leadsBelow hdirectory output).steps_eq, List.prefix_append_right_inj,
      List.prefix_append_right_inj]
    exact ⟨hnames, hnames'⟩
  · intro v p q hp hq
    obtain ⟨base, hbase, rfl⟩ := src.place_of_resolve hdirectory hp
    obtain ⟨base', hbase', rfl⟩ := src'.place_of_resolve hdirectory hq
    obtain rfl : base = base' := Except.ok.inj (hbase.symm.trans hbase')
    rw [List.prefix_append_right_inj, List.prefix_append_right_inj]
    exact ⟨hnames, hnames'⟩

end Places

/-! ## Catalogs in the tree -/

/-- The catalog of a source stands in a tree: a file for each kind with what a scan of the
source's text finds. Under accepted limits the scan returns. -/
def CatalogStands (host : Host) (config : Config) (directory : String) (t u : FileTree)
    (path : String) : Prop :=
  ∃ text o, t.readText path = .ok text ∧
    o = Scan.outcome host.limits config.preferences.scanning text ∧
    (∀ profile, host.limits.validate profile = .ok () →
      Scan.scan host.limits config.preferences.scanning text = .ok o) ∧
    ∀ k : Kind, u.readText
        (Path.join (outputDirectory config.preferences.output.directory directory path)
          (k.collection ++ ".txt")) =
      .ok ((Inventory.empty.addAll o.declarations).render k)

section Catalogs

variable {host : Host} {config : Config} {directory : String} {t : FileTree}

/-- The catalog of a source is that of the text which its path leads to. -/
theorem IsSourceBelow.text_of_ofFile {path : String} {names : Location} {prefs : Preferences}
    {id : Nat} {catalog : Catalog} (src : IsSourceBelow t directory path names)
    (wf : t.WellFormed) (h : outcome (Catalog.ofFile host prefs t path id) = .ok catalog) :
    ∃ text, t.readText path = .ok text ∧ text.utf8ByteSize ≤ host.limits.maxFileSize ∧
      catalog.inventory =
        Inventory.empty.addAll (Scan.outcome host.limits prefs.scanning text).declarations := by
  obtain ⟨place, content, same⟩ := src.sameFile wf (FileTree.Grows.refl _ t)
  rw [Catalog.outcome_ofFile] at h
  rcases hfile : outcome (SourceFile.read host prefs.reading t path) with e | file <;>
    rw [hfile] at h
  · cases h
  · obtain rfl := Except.ok.inj h
    obtain ⟨htext, hsize⟩ := SourceFile.read_ok wf same.resolve same.node hfile
    exact ⟨file.text, htext, hsize, rfl⟩

/-- A file that is cataloged at the start has a delivery that arrives, and sends it to every
tree. -/
theorem IsSourceBelow.delivery_of_expected {job : Job} {names : Location} {s : Success}
    (src : IsSourceBelow t directory job.path names) (hdirectory : directory ≠ "")
    (wf : t.WellFormed) (hwrite : config.write = true)
    (h : expected host config directory t job = .ok s) :
    ∃ catalog, outcome (Catalog.ofFile host config.preferences t job.path job.id) = .ok catalog ∧
      (t.deliver (t.origin config.preferences.output.directory)
        (steps config.preferences.output.directory ++ names)
        ((writerFor config directory job.path).parcels host catalog.inventory)).2 = .ok () ∧
      ∀ v, send host config directory t v job =
        (v.deliver (t.origin config.preferences.output.directory)
          (steps config.preferences.output.directory ++ names)
          ((writerFor config directory job.path).parcels host catalog.inventory)).1 := by
  have leads := src.leadsBelow hdirectory config.preferences.output.directory
  rw [expected, valueOn_catalogOne_eq wf leads] at h
  simp only [verdict] at h
  simp only [send, consignment]
  rcases hcatalog : outcome (Catalog.ofFile host config.preferences t job.path job.id) with
    e | catalog <;> rw [hcatalog] at h
  · cases h
  simp only [hwrite, if_true] at h
  rcases hfault : FileTree.pathFault? (writerFor config directory job.path).directory with
    _ | fault <;> rw [hfault] at h
  swap
  · cases h
  rw [src.steps_writer hdirectory config] at h
  refine ⟨catalog, rfl, ?_, fun v => ?_⟩
  · rcases hresult : (t.deliver (t.origin config.preferences.output.directory)
        (steps config.preferences.output.directory ++ names)
        ((writerFor config directory job.path).parcels host catalog.inventory)).2 with e | ⟨⟩
    · simp only [hresult] at h
      cases h
    · rfl
  · simp only [hwrite, Option.isNone_none, Bool.and_self, if_true, ship,
      src.steps_writer hdirectory config]

/-- The catalog of each file that would be cataloged at the start stands in the tree after
whatever files it is among. -/
theorem Independent.catalogStands {done : List Job} (ind : Independent t directory done)
    (wf : t.WellFormed) (hwrite : config.write = true) {job : Job} (hjob : job ∈ done)
    {s : Success} (h : expected host config directory t job = .ok s) :
    CatalogStands host config directory t (sendAll host config directory t done) job.path := by
  obtain ⟨names, src⟩ := ind.source job hjob
  obtain ⟨catalog, hcatalog, harrived, hsend⟩ :=
    src.delivery_of_expected ind.directory_ne wf hwrite h
  -- The order does not matter, so the file may come last.
  obtain ⟨front, back, rfl⟩ := List.append_of_mem hjob
  have hperm : (front ++ job :: back).Perm (front ++ back ++ [job]) := by
    rw [List.append_assoc]
    exact (List.perm_append_singleton job back).symm.append_left front
  have ind' := ind.perm hperm
  obtain ⟨wf', grows⟩ :=
    (ind'.sublist (List.sublist_append_left _ _)).sendAll_spec wf host config
  rw [ind.sendAll_perm hperm, sendAll_concat, hsend]
  have hlast : ((sendAll host config directory t (front ++ back)).deliver
      (t.origin config.preferences.output.directory)
      (steps config.preferences.output.directory ++ names)
      ((writerFor config directory job.path).parcels host catalog.inventory)).2 = .ok () :=
    (ind'.deliver_sendAll src _).trans harrived
  have leads := src.leadsBelow ind.directory_ne config.preferences.output.directory
  have horigin : (sendAll host config directory t (front ++ back)).origin
      (writerFor config directory job.path).directory =
      t.origin config.preferences.output.directory :=
    FileTree.origin_congr grows.home leads.isAbsolute_eq
  rw [← src.steps_writer ind.directory_ne config, ← horigin] at hlast ⊢
  have hread := FileWriter.readText_of_deliver wf' hlast
  obtain ⟨text, htext, hsize, hinventory⟩ := src.text_of_ofFile wf hcatalog
  refine ⟨text, _, htext, rfl, ?_, fun k => ?_⟩
  · intro profile valid
    exact Scan.scan_of_fits _ _ (Scan.positionsFit_of_validate valid hsize)
  · rw [← hinventory]
    exact hread k

end Catalogs

/-! ## What a batch leaves -/

/-- What a batch over some files leaves: the catalogs of its successes, the sources as they were,
and no change to a file that is not named like one of a catalog. -/
structure Leaves (host : Host) (config : Config) (directory : String) (t : FileTree)
    (files : List String) (successes : List Success) (u : FileTree) : Prop where
  catalogs : ∀ s ∈ successes, s.path ∈ files ∧ CatalogStands host config directory t u s.path
  sources : ∀ f ∈ files, u.readBytes f = t.readBytes f
  others : FileTree.Grows FileWriter.outputNames t u

section Leaving

variable {host : Host} {config : Config} {directory : String} {t : FileTree} {files : List String}

theorem Discovered.leaves (found : Discovered t directory files) (wf : t.WellFormed)
    (hwrite : config.write = true) {done : List Job} (hdone : done.Sublist (jobs files))
    {successes : List Success}
    (h : ∀ s ∈ successes, ∃ job ∈ done, expected host config directory t job = .ok s) :
    Leaves host config directory t files successes (sendAll host config directory t done) := by
  have ind := found.independent.sublist hdone
  have grows := (ind.sendAll_spec wf host config).2
  refine ⟨?_, ?_, grows⟩
  · intro s hs
    obtain ⟨job, hjob, hexpected⟩ := h s hs
    have hpath : job.path ∈ files := by
      rw [← map_path_jobs files]
      exact List.mem_map_of_mem (hdone.subset hjob)
    rw [path_of_expected hexpected]
    exact ⟨hpath, ind.catalogStands wf hwrite hjob hexpected⟩
  · intro f hf
    obtain ⟨names, src⟩ := found.source f hf
    obtain ⟨place, content, same⟩ := src.sameFile wf grows
    rw [FileTree.readBytes_eq_of_resolve same.resolve same.node,
      FileTree.readBytes_eq_of_resolve same.resolve' same.node']

theorem exists_job_of_success {os : List Outcome} {js : List Job}
    (h : List.Forall₂ (Comes host config directory t) os js) {s : Success}
    (hs : s ∈ os.filterMap Outcome.success?) :
    ∃ job ∈ js, expected host config directory t job = .ok s := by
  obtain ⟨o, ho, hsuccess⟩ := List.mem_filterMap.mp hs
  induction h with
  | nil => cases ho
  | @cons first job os js hcomes _ ih =>
      rcases List.mem_cons.mp ho with rfl | ho
      · exact ⟨job, List.mem_cons_self, hcomes.expected_of_success hsuccess⟩
      · obtain ⟨job', hjob', hexpected⟩ := ih (List.mem_filterMap.mpr ⟨o, ho, hsuccess⟩) ho
        exact ⟨job', List.mem_cons_of_mem _ hjob', hexpected⟩

end Leaving

/-! ### Runs that may stop -/

section Stopping

variable (host : Host) (config : Config) (directory : String)

/-- Files in turn are processed up to some file. -/
theorem exists_done_runInTurn (count : Nat) (r : Results) (js : List Job) (t : FileTree) :
    ∃ done, done.Sublist js ∧ valueOn (runInTurn host config directory count r js) t =
      (r.recordAll (attempts host config directory t done).1,
        (attempts host config directory t done).2) := by
  induction js generalizing r t with
  | nil => exact ⟨[], .slnil, rfl⟩
  | cons job js ih =>
      rw [valueOn_runInTurn_cons]
      split
      · exact ⟨[job], List.singleton_sublist.mpr List.mem_cons_self, rfl⟩
      · obtain ⟨done, hsub, hvalue⟩ := ih
          (r.record (job, (valueOn (catalogOne host config directory job) t).1))
          (valueOn (catalogOne host config directory job) t).2
        exact ⟨job :: done, hsub.cons_cons job, hvalue⟩

private theorem exists_done_runShare (r : Results) (stop : Bool) (js : List Job) (t : FileTree) :
    ∃ done stop', done.Sublist js ∧ valueOn (runShare host config directory r stop js) t =
      ((r.recordAll (attempts host config directory t done).1, stop'),
        (attempts host config directory t done).2) := by
  induction js generalizing r stop t with
  | nil => exact ⟨[], stop, .slnil, rfl⟩
  | cons job js ih =>
      rw [runShare]
      cases stop with
      | true => exact ⟨[], true, List.nil_sublist _, rfl⟩
      | false =>
          rw [if_neg Bool.false_ne_true, valueOn_bind, valueOn_process]
          obtain ⟨done, stop', hsub, hvalue⟩ := ih
            (r.record (job, (valueOn (catalogOne host config directory job) t).1))
            (!(valueOn (catalogOne host config directory job) t).1.isOk && config.failFast)
            (valueOn (catalogOne host config directory job) t).2
          exact ⟨job :: done, stop', hsub.cons_cons job, hvalue⟩

private theorem exists_done_runShares (r : Results) (stop : Bool) (parts : List (List Job))
    (t : FileTree) :
    ∃ done, done.Sublist parts.flatten ∧
      valueOn (runShares host config directory r stop parts) t =
        (r.recordAll (attempts host config directory t done).1,
          (attempts host config directory t done).2) := by
  induction parts generalizing r stop t with
  | nil => exact ⟨[], .slnil, rfl⟩
  | cons share parts ih =>
      obtain ⟨done, stop', hsub, hshare⟩ :=
        exists_done_runShare host config directory {} stop share t
      obtain ⟨rest, hsub', hrest⟩ := ih (r.recordAll (attempts host config directory t done).1)
        stop' (attempts host config directory t done).2
      refine ⟨done ++ rest, hsub.append hsub', ?_⟩
      rw [runShares, valueOn_bind, hshare]
      dsimp only
      rw [Results.merge_recordAll, hrest, attempts_append, Results.recordAll_append]

variable {host config directory} {t u : FileTree} {r : Results}

/-- A batch that returns has processed some of the files that it discovered. -/
theorem exists_done_run (h : resultOn (run host config directory) t = (.ok r, u)) :
    ∃ files done, outcome (discover host config t directory) = .ok files ∧
      done.Sublist (jobs files) ∧ u = (attempts host config directory t done).2 ∧
      ∀ s ∈ r.successes,
        s ∈ (attempts host config directory t done).1.filterMap Outcome.success? := by
  rw [run] at h
  split at h
  · rw [resultOn_sequential_eq] at h
    rcases hdiscover : outcome (discover host config t directory) with e | files <;>
      rw [hdiscover] at h
    · cases h
    obtain ⟨done, hsub, hvalue⟩ := exists_done_runInTurn host config directory files.length
      { discovered := files.length } (jobs files) t
    dsimp only at h
    rw [hvalue] at h
    cases h
    refine ⟨files, done, rfl, hsub, rfl, fun s hs => ?_⟩
    rw [Results.recordAll_eq] at hs
    exact hs
  · rw [resultOn_parallel_eq] at h
    rcases hdiscover : outcome (discover host config t directory) with e | files <;>
      rw [hdiscover] at h
    · cases h
    obtain ⟨done, hsub, hvalue⟩ := exists_done_runShares host config directory
      { discovered := files.length } false (assignments (config.activeWorkers host) files) t
    rw [flatten_assignments (activeWorkers_pos config host)] at hsub
    dsimp only at h
    rw [hvalue] at h
    cases h
    refine ⟨files, done, rfl, hsub, rfl, fun s hs => ?_⟩
    rw [Results.recordAll_eq] at hs
    exact List.mem_mergeSort.mp hs

end Stopping

/-! ### Every run -/

section Runs

variable {host : Host} {config : Config} {directory : String} {t : FileTree} {files : List String}

theorem leaves_run (wf : t.WellFormed) (hwrite : config.write = true) {r : Results} {u : FileTree}
    (h : resultOn (run host config directory) t = (.ok r, u)) :
    ∃ files, outcome (discover host config t directory) = .ok files ∧
      Leaves host config directory t files r.successes u := by
  obtain ⟨files, done, hdiscover, hdone, rfl, hsuccesses⟩ := exists_done_run h
  have found := discovered_of_discover wf hdiscover
  have hspec : (attempts host config directory t done).2 =
        sendAll host config directory t done ∧
      List.Forall₂ (Comes host config directory t) (attempts host config directory t done).1 done :=
    Independent.attempts_spec [] done (found.independent.sublist hdone) wf host config
  obtain ⟨htree, hcomes⟩ := hspec
  rw [htree]
  exact ⟨files, hdiscover, found.leaves wf hwrite hdone fun s hs =>
    exists_job_of_success hcomes (hsuccesses s hs)⟩

/-- Workers leave the same at every moment, in whatever order they take their files. -/
theorem leaves_crew (wf : t.WellFormed) (hwrite : config.write = true)
    (found : Discovered t directory files) {c : Crew}
    (h : Crew.Runs host config directory (Crew.start host config files t) c) :
    Leaves host config directory t files (c.workers.flatMap fun w => w.part.successes) c.tree := by
  have hunderway :=
    (Crew.underway_start host config directory t files).runs h wf found.independent
  have hdone : (c.workers.flatMap Worker.finished).Sublist (jobs files) := by
    rw [← hunderway.assigned]
    exact sublist_flatMap_finished _
  rw [hunderway.tree_eq]
  refine found.leaves wf hwrite hdone fun s hs => ?_
  obtain ⟨w, hw, hs⟩ := List.mem_flatMap.mp hs
  obtain ⟨os, hpart, hos⟩ := hunderway.parts w hw
  rw [hpart, Results.recordAll_eq] at hs
  obtain ⟨job, hjob, hexpected⟩ := exists_job_of_success hos hs
  exact ⟨job, List.mem_flatMap.mpr ⟨w, hw, hjob⟩, hexpected⟩

end Runs

/-- After a batch that writes, the catalog of every success stands at the source's own names below
the output directory and says what a scan of the source's text before the batch finds; no source
has changed. The same holds at every moment while workers take turns. Output directories of two
sources are apart in every tree, so no catalog is written over another. -/
theorem run_leaves_catalogs (host : Host) (config : Config) (directory : String) (t : FileTree)
    (wf : t.WellFormed) (hwrite : config.write = true) :
    (∀ r u, resultOn (run host config directory) t = (.ok r, u) →
      ∃ files, outcome (discover host config t directory) = .ok files ∧
        Leaves host config directory t files r.successes u) ∧
    ∀ files, outcome (discover host config t directory) = .ok files →
      (∀ c, Crew.Runs host config directory (Crew.start host config files t) c →
        Leaves host config directory t files (c.workers.flatMap fun w => w.part.successes)
          c.tree) ∧
      (∀ f ∈ files, ∃ names : Location, names ≠ [] ∧ (∀ n ∈ names, IsName n) ∧
        f = names.foldl Path.join directory ∧
        outputDirectory config.preferences.output.directory directory f =
          names.foldl Path.join config.preferences.output.directory) ∧
      files.Pairwise fun f g =>
        Apart (outputDirectory config.preferences.output.directory directory f)
          (outputDirectory config.preferences.output.directory directory g) ∧
        ∀ (v : FileTree) (p q : Location),
          v.resolve (outputDirectory config.preferences.output.directory directory f) = .ok p →
          v.resolve (outputDirectory config.preferences.output.directory directory g) = .ok q →
          ¬ p <+: q ∧ ¬ q <+: p := by
  refine ⟨fun r u => leaves_run wf hwrite, fun files hdiscover => ?_⟩
  have found := discovered_of_discover wf hdiscover
  refine ⟨fun c => leaves_crew wf hwrite found, ?_, ?_⟩
  · intro f hf
    obtain ⟨names, src⟩ := found.source f hf
    exact ⟨names, src.ne_nil, src.isName, src.path_eq,
      src.outputDirectory_eq found.directory_ne _⟩
  · apply found.apart.imp_of_mem
    intro f g hf hg apart
    obtain ⟨names, src⟩ := found.source f hf
    obtain ⟨names', src'⟩ := found.source g hg
    exact src.outputDirectory_apart src' found.directory_ne apart _

def insideSources : Config :=
  { workers := 1, preferences := { output := { directory := "d/out" } } }

private theorem render_oneVariable {text : String}
    (h : twoSources.readText "d/a.c" = .ok text) :
    (Inventory.empty.addAll (Scan.outcome ({} : Host).limits insideSources.preferences.scanning
      text).declarations).render .variable = "int x;\n" := by
  have htext : twoSources.readText "d/a.c" = .ok "int x;\n" := by decide +kernel
  obtain rfl : "int x;\n" = text := Except.ok.inj (htext.symm.trans h)
  decide +kernel

theorem run_leaves_catalogs_insideSources :
    twoSources.WellFormed ∧ insideSources.write = true ∧
    ∃ r u, resultOn (run {} insideSources "d") twoSources = (.ok r, u) ∧
      r.successes.map Success.path = ["d/a.c", "d/b.c"] ∧
      u.readText "d/out/a.c/variables.txt" = .ok "int x;\n" ∧
      u.readBytes "d/b.c" = twoSources.readBytes "d/b.c" := by
  have hdiscover : outcome (discover {} insideSources twoSources "d") =
      .ok ["d/a.c", "d/b.c"] := discover_twoSources rfl rfl
  obtain ⟨r, u, hrun, hpaths⟩ : ∃ r u,
      resultOn (run {} insideSources "d") twoSources = (.ok r, u) ∧
      r.successes.map Success.path = ["d/a.c", "d/b.c"] := by
    have hsequential :=
      resultOn_sequential {} "d" (show insideSources.failFast = false from rfl) twoSources
    rw [hdiscover] at hsequential
    exact ⟨_, _, hsequential, by decide +kernel⟩
  obtain ⟨files, hfiles, leaves⟩ :=
    (run_leaves_catalogs {} insideSources "d" twoSources wellFormed_twoSources rfl).1 r u hrun
  obtain rfl : ["d/a.c", "d/b.c"] = files := Except.ok.inj (hdiscover.symm.trans hfiles)
  refine ⟨wellFormed_twoSources, rfl, r, u, hrun, hpaths, ?_, leaves.sources _ (by simp)⟩
  have hmem : "d/a.c" ∈ r.successes.map Success.path := by
    rw [hpaths]
    exact List.mem_cons_self
  obtain ⟨s, hs, hpath⟩ := List.mem_map.mp hmem
  obtain ⟨-, text, o, htext, rfl, -, hread⟩ := leaves.catalogs s hs
  rw [hpath] at htext hread
  have hfile : Path.join (outputDirectory insideSources.preferences.output.directory "d" "d/a.c")
      (Kind.variable.collection ++ ".txt") = "d/out/a.c/variables.txt" := by decide +kernel
  rw [← hfile, hread .variable, render_oneVariable htext]

end Batch

end CInventory
