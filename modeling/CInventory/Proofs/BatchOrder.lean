import Mathlib
import CInventory.Proofs.JobOrder

/-!
# Batches in turn and in shares

Several workers take turns in any order, each at the files of its own share. When all files are
done, the tree and the results are those of a batch in turn, but for the reason in an error about
an output directory whose way leads through a missing directory and back.
-/

namespace CInventory.Batch

open Diagnostic Output

/-! ## Shares -/

/-- Numbered by share and place in the share, files have the numbers that they have in the
list. -/
theorem flatMap_shares {size : Nat} (hsize : 0 < size) {fuel : Nat} {files : List String}
    (hfuel : files.length ≤ fuel) (first : Nat) :
    (((shares size fuel files).zipIdx first).flatMap fun (share, worker) =>
        share.zipIdx.map fun (path, i) => (⟨worker * size + i, path⟩ : Job)) =
      (files.zipIdx (first * size)).map fun (path, id) => ⟨id, path⟩ := by
  induction fuel generalizing files first with
  | zero =>
      obtain rfl := List.eq_nil_of_length_eq_zero (Nat.le_zero.mp hfuel)
      rfl
  | succ fuel ih =>
      rcases hfiles : files with _ | ⟨file, rest⟩
      · rfl
      · rw [← hfiles]
        have hshares : shares size (fuel + 1) files =
            files.take size :: shares size fuel (files.drop size) := by
          rw [hfiles, shares]
          exact List.cons_ne_nil _ _
        have hdrop : (files.drop size).length ≤ fuel := by
          rw [List.length_drop]
          omega
        have hfirst : (files.take size).zipIdx.map
              (fun (path, i) => (⟨first * size + i, path⟩ : Job)) =
            ((files.take size).zipIdx (first * size)).map fun (path, id) => ⟨id, path⟩ := by
          rw [List.zipIdx_eq_map_add (l := files.take size) (i := first * size), List.map_map]
          rfl
        have hrest : (files.drop size).zipIdx ((first + 1) * size) =
            (files.drop size).zipIdx (first * size + (files.take size).length) := by
          rcases Nat.le_total files.length size with hle | hle
          · rw [List.drop_eq_nil_of_le hle]
            rfl
          · rw [List.length_take, Nat.min_eq_left hle, Nat.succ_mul]
        rw [hshares, List.zipIdx_cons, List.flatMap_cons, ih hdrop]
        dsimp only
        rw [hfirst, hrest, ← List.map_append, ← List.zipIdx_append, List.take_append_drop]

/-- Every file is in one share, under its number. -/
theorem flatten_assignments {workers : Nat} (hworkers : 0 < workers) (files : List String) :
    (assignments workers files).flatten = jobs files := by
  rcases Nat.eq_zero_or_pos files.length with hnone | hsome
  · obtain rfl := List.eq_nil_of_length_eq_zero hnone
    rfl
  · have hsize : 0 < (files.length + workers - 1) / workers :=
      Nat.div_pos (by omega) hworkers
    have hflat := flatMap_shares hsize (Nat.le_refl files.length) 0
    rw [Nat.zero_mul] at hflat
    rw [assignments, Nat.max_eq_right hsize, ← List.flatMap_def]
    exact hflat

theorem activeWorkers_pos (config : Config) (host : Host) : 0 < config.activeWorkers host :=
  Nat.lt_of_lt_of_le Nat.one_pos (Nat.le_max_left _ _)

/-! ## Results of outcomes -/

/-- A file and what came of it. -/
abbrev Outcome := Job × Except CatalogError Success

namespace Outcome

def success? : Outcome → Option Success
  | (_, .ok s) => some s
  | (_, .error _) => none

def failure? : Outcome → Option Failure
  | (_, .ok _) => none
  | (job, .error e) => some ⟨job.path, e⟩

@[simp] theorem success?_ok (job : Job) (s : Success) : success? (job, .ok s) = some s := rfl

@[simp] theorem success?_error (job : Job) (e : CatalogError) : success? (job, .error e) = none :=
  rfl

@[simp] theorem failure?_ok (job : Job) (s : Success) : failure? (job, .ok s) = none := rfl

@[simp] theorem failure?_error (job : Job) (e : CatalogError) :
    failure? (job, .error e) = some ⟨job.path, e⟩ := rfl

end Outcome

namespace Results

def record (r : Results) : Outcome → Results
  | (_, .ok s) => r.addSuccess s
  | (job, .error e) => r.addFailure ⟨job.path, e⟩

def recordAll (r : Results) (os : List Outcome) : Results := os.foldl record r

theorem recordAll_eq (r : Results) (os : List Outcome) :
    r.recordAll os =
      { r with
        successes := r.successes ++ os.filterMap Outcome.success?
        failures := r.failures ++ os.filterMap Outcome.failure?
        processed := r.processed + os.length } := by
  induction os generalizing r with
  | nil => simp [recordAll]
  | cons o os ih =>
      rw [recordAll, List.foldl_cons, ← recordAll, ih]
      rcases o with ⟨job, e | s⟩
      · simp [record, addFailure, List.filterMap_cons, Nat.add_assoc, Nat.add_comm 1]
      · simp [record, addSuccess, List.filterMap_cons, Nat.add_assoc, Nat.add_comm 1]

theorem recordAll_append (r : Results) (os os' : List Outcome) :
    r.recordAll (os ++ os') = (r.recordAll os).recordAll os' :=
  List.foldl_append

theorem merge_recordAll (r : Results) (os : List Outcome) :
    r.merge (recordAll {} os) = r.recordAll os := by
  simp [recordAll_eq, merge]

structure Agree (loose : Prop) (r s : Results) : Prop where
  discovered : r.discovered = s.discovered
  processed : r.processed = s.processed
  successes : r.successes = s.successes
  failures : List.Forall₂ (fun f g => f.path = g.path ∧ f.error.Alike loose g.error)
    r.failures s.failures

end Results

def Outcome.Alike (loose : Prop) (o o' : Outcome) : Prop := o.1 = o'.1 ∧ Batch.Alike loose o.2 o'.2

theorem Outcome.Alike.eq {loose : Prop} (hloose : ¬ loose) {o o' : Outcome}
    (h : Outcome.Alike loose o o') : o = o' := by
  obtain ⟨job, x⟩ := o
  obtain ⟨job', x'⟩ := o'
  obtain ⟨hjob, h⟩ := h
  cases h with
  | ok s => exact Prod.ext hjob rfl
  | error h => exact Prod.ext hjob (congrArg Except.error (h.eq hloose))

theorem agree_recordAll {loose : Prop} {os os' : List Outcome}
    (h : List.Forall₂ (Outcome.Alike loose) os os') (count elapsed elapsed' : Nat) :
    Results.Agree loose
      { Results.recordAll { discovered := count } os with elapsed := elapsed }
      { Results.recordAll { discovered := count } os' with elapsed := elapsed' } := by
  rw [Results.recordAll_eq, Results.recordAll_eq]
  refine ⟨rfl, by simp [h.length_eq], ?_, ?_⟩ <;> simp only [List.nil_append]
  · induction h with
    | nil => rfl
    | @cons o o' _ _ h _ ih =>
        obtain ⟨job, x⟩ := o
        obtain ⟨job', x'⟩ := o'
        obtain ⟨-, ⟨s⟩ | h⟩ := h
        · simp [ih]
        · simp [List.filterMap_cons, ih]
  · induction h with
    | nil => exact .nil
    | @cons o o' _ _ h _ ih =>
        obtain ⟨job, x⟩ := o
        obtain ⟨job', x'⟩ := o'
        obtain ⟨hjob, ⟨s⟩ | h⟩ := h
        · simpa [List.filterMap_cons] using ih
        · simpa [List.filterMap_cons] using ⟨⟨congrArg Job.path hjob, h⟩, ih⟩

/-! ## Files in turn -/

section Turns

variable (host : Host) (config : Config) (directory : String)

def attempts (t : FileTree) : List Job → List Outcome × FileTree
  | [] => ([], t)
  | job :: rest =>
    let (o, u) := valueOn (catalogOne host config directory job) t
    let (os, v) := attempts u rest
    ((job, o) :: os, v)

theorem attempts_append (t : FileTree) (js ks : List Job) :
    attempts host config directory t (js ++ ks) =
      ((attempts host config directory t js).1 ++
          (attempts host config directory (attempts host config directory t js).2 ks).1,
        (attempts host config directory (attempts host config directory t js).2 ks).2) := by
  induction js generalizing t with
  | nil => rfl
  | cons job js ih => simp only [List.cons_append, attempts, ih]

theorem valueOn_process (r : Results) (job : Job) (t : FileTree) :
    valueOn (process host config directory r job) t =
      ((r.record (job, (valueOn (catalogOne host config directory job) t).1),
          (valueOn (catalogOne host config directory job) t).1.isOk),
        (valueOn (catalogOne host config directory job) t).2) := by
  unfold process
  rw [valueOn_bind]
  rcases valueOn (catalogOne host config directory job) t with ⟨e | s, u⟩ <;> rfl

theorem valueOn_runInTurn_cons (count : Nat) (r : Results) (job : Job) (js : List Job)
    (t : FileTree) :
    valueOn (runInTurn host config directory count r (job :: js)) t =
      if !(valueOn (catalogOne host config directory job) t).1.isOk && config.failFast then
        (r.record (job, (valueOn (catalogOne host config directory job) t).1),
          (valueOn (catalogOne host config directory job) t).2)
      else
        valueOn (runInTurn host config directory count
            (r.record (job, (valueOn (catalogOne host config directory job) t).1)) js)
          (valueOn (catalogOne host config directory job) t).2 := by
  have hnote : ∀ x : Work Results, valueOn (do
      if config.progress then
        note [.print s!"Cataloging file {job.id + 1} of {count}: {job.path}"]
      x) t = valueOn x t := by
    intro x
    cases config.progress <;> rfl
  rw [runInTurn, hnote, valueOn_bind, valueOn_process]
  dsimp only
  split <;> rfl

theorem resultOn_sequential_eq (t : FileTree) :
    resultOn (sequential host config directory) t =
      match outcome (discover host config t directory) with
      | .error e => (.error e, t)
      | .ok files =>
        (.ok { (valueOn (runInTurn host config directory files.length
            { discovered := files.length } (jobs files)) t).1 with
          elapsed := host.clock.elapsed },
        (valueOn (runInTurn host config directory files.length
          { discovered := files.length } (jobs files)) t).2) := by
  unfold sequential
  rw [resultOn_mk, valueOn_bind, valueOn_bind, valueOn_bind]
  simp only [note, valueOn_lift, valueOn_get]
  rw [← outcome]
  rcases outcome (discover host config t directory) with e | files <;> rfl

theorem resultOn_parallel_eq (t : FileTree) :
    resultOn (parallel host config directory) t =
      match outcome (discover host config t directory) with
      | .error e => (.error e, t)
      | .ok files =>
        (.ok { (valueOn (runShares host config directory { discovered := files.length } false
            (assignments (config.activeWorkers host) files)) t).1.sortByPath with
          elapsed := host.clock.elapsed },
        (valueOn (runShares host config directory { discovered := files.length } false
          (assignments (config.activeWorkers host) files)) t).2) := by
  unfold parallel
  simp only [resultOn_mk]
  rw [valueOn_bind, valueOn_bind, valueOn_bind]
  simp only [note, valueOn_lift, valueOn_get]
  rw [← outcome]
  rcases outcome (discover host config t directory) with e | files <;> rfl

variable {config} (hfast : config.failFast = false)

include hfast

theorem valueOn_runInTurn (count : Nat) (r : Results) (js : List Job) (t : FileTree) :
    valueOn (runInTurn host config directory count r js) t =
      (r.recordAll (attempts host config directory t js).1,
        (attempts host config directory t js).2) := by
  induction js generalizing r t with
  | nil => rfl
  | cons job js ih =>
      rw [valueOn_runInTurn_cons, hfast, Bool.and_false, if_neg Bool.false_ne_true]
      exact ih _ _

theorem valueOn_runShare (r : Results) (js : List Job) (t : FileTree) :
    valueOn (runShare host config directory r false js) t =
      ((r.recordAll (attempts host config directory t js).1, false),
        (attempts host config directory t js).2) := by
  induction js generalizing r t with
  | nil => rfl
  | cons job js ih =>
      rw [runShare, if_neg Bool.false_ne_true, valueOn_bind, valueOn_process]
      simp only [hfast, Bool.and_false]
      exact ih _ _

theorem valueOn_runShares (r : Results) (parts : List (List Job)) (t : FileTree) :
    valueOn (runShares host config directory r false parts) t =
      (r.recordAll (attempts host config directory t parts.flatten).1,
        (attempts host config directory t parts.flatten).2) := by
  induction parts generalizing r t with
  | nil => rfl
  | cons share parts ih =>
      rw [runShares, valueOn_bind, valueOn_runShare host directory hfast]
      dsimp only
      rw [ih, Results.merge_recordAll, List.flatten_cons, attempts_append,
        Results.recordAll_append]

theorem resultOn_sequential (t : FileTree) :
    resultOn (sequential host config directory) t =
      match outcome (discover host config t directory) with
      | .error e => (.error e, t)
      | .ok files =>
        (.ok { Results.recordAll { discovered := files.length }
            (attempts host config directory t (jobs files)).1 with
          elapsed := host.clock.elapsed },
        (attempts host config directory t (jobs files)).2) := by
  rw [resultOn_sequential_eq]
  simp only [valueOn_runInTurn host directory hfast]

theorem resultOn_parallel (t : FileTree) :
    resultOn (parallel host config directory) t =
      match outcome (discover host config t directory) with
      | .error e => (.error e, t)
      | .ok files =>
        (.ok { (Results.recordAll { discovered := files.length }
            (attempts host config directory t
              (assignments (config.activeWorkers host) files).flatten).1).sortByPath with
          elapsed := host.clock.elapsed },
        (attempts host config directory t
          (assignments (config.activeWorkers host) files).flatten).2) := by
  rw [resultOn_parallel_eq]
  simp only [valueOn_runShares host directory hfast]

end Turns

/-! ## Workers in any order -/

/-- A worker: the files of its share that it is done with and those that it still has, and what it
has recorded. -/
structure Worker where
  finished : List Job := []
  waiting : List Job
  part : Results := {}

structure Crew where
  workers : List Worker
  tree : FileTree

namespace Crew

def start (host : Host) (config : Config) (files : List String) (t : FileTree) : Crew :=
  ⟨(assignments (config.activeWorkers host) files).map fun share => { waiting := share }, t⟩

/-- Any worker takes the next file of its share. -/
inductive Turn (host : Host) (config : Config) (directory : String) : Crew → Crew → Prop
  | next (before after : List Worker) (finished waiting : List Job) (job : Job)
      (part part' : Results) (tree tree' : FileTree) (ok : Bool)
      (h : valueOn (process host config directory part job) tree = ((part', ok), tree')) :
      Turn host config directory
        ⟨before ++ ⟨finished, job :: waiting, part⟩ :: after, tree⟩
        ⟨before ++ ⟨finished ++ [job], waiting, part'⟩ :: after, tree'⟩

/-- Turns of the workers in some order. -/
abbrev Runs (host : Host) (config : Config) (directory : String) : Crew → Crew → Prop :=
  Relation.ReflTransGen (Turn host config directory)

def Done (c : Crew) : Prop := ∀ w ∈ c.workers, w.waiting = []

def results (host : Host) (count : Nat) (c : Crew) : Results :=
  { ((c.workers.map Worker.part).foldl Results.merge { discovered := count }).sortByPath with
    elapsed := host.clock.elapsed }

end Crew

theorem sublist_flatMap_finished (workers : List Worker) :
    (workers.flatMap Worker.finished).Sublist
      (workers.flatMap fun w => w.finished ++ w.waiting) := by
  induction workers with
  | nil => exact .slnil
  | cons w workers ih => exact (List.sublist_append_left _ _).append ih

section Interleaving

variable {host : Host} {config : Config} {directory : String} {t : FileTree} {files : List String}

theorem map_path_jobs (files : List String) : (jobs files).map Job.path = files := by
  rw [jobs, List.map_map]
  exact List.zipIdx_map_fst 0 files

private theorem length_jobs (files : List String) : (jobs files).length = files.length := by
  simp [jobs]

theorem Discovered.sorted_jobs (found : Discovered t directory files) :
    (jobs files).Pairwise fun j k => Path.compare j.path k.path ≠ .gt := by
  rw [← List.pairwise_map (f := Job.path) (R := fun f g => Path.compare f g ≠ .gt), map_path_jobs]
  exact found.sorted

theorem Discovered.independent (found : Discovered t directory files) :
    Independent t directory (jobs files) where
  directory_ne := found.directory_ne
  source := by
    intro job hjob
    apply found.source
    rw [← map_path_jobs files]
    exact List.mem_map_of_mem hjob
  apart := by
    rw [← List.pairwise_map (f := Job.path), map_path_jobs]
    exact found.apart

/-- An outcome of a file that is like the one at the start of the batch. -/
def Comes (host : Host) (config : Config) (directory : String) (t : FileTree) (o : Outcome)
    (job : Job) : Prop :=
  Outcome.Alike (config.OutputDetours t) o (job, expected host config directory t job)

theorem Comes.expected_of_success {o : Outcome} {job : Job} {s : Success}
    (h : Comes host config directory t o job) (hs : o.success? = some s) :
    expected host config directory t job = .ok s := by
  obtain ⟨job', x⟩ := o
  obtain ⟨-, halike⟩ := h
  generalize expected host config directory t job = y at halike
  cases halike with
  | ok s' => rw [Option.some.inj hs]
  | error => cases hs

theorem Comes.path {o : Outcome} {job : Job} {s : Success}
    (h : Comes host config directory t o job) (hs : o.success? = some s) :
    s.path = o.1.path := by
  rw [path_of_expected (h.expected_of_success hs), h.1]

private theorem alike_of_comes {os os' : List Outcome} {js : List Job}
    (h : List.Forall₂ (Comes host config directory t) os js)
    (h' : List.Forall₂ (Comes host config directory t) os' js) :
    List.Forall₂ (Outcome.Alike (config.OutputDetours t)) os os' := by
  induction h generalizing os' with
  | nil =>
      cases h'
      exact .nil
  | cons h _ ih =>
      cases h' with
      | cons h' hrest => exact .cons ⟨h.1.trans h'.1.symm, h.2.trans h'.2.symm⟩ (ih hrest)

/-- Files after others: the tree is that of all of them, and each comes to what it would have come
to at the start. -/
theorem Independent.attempts_spec (order js : List Job)
    (ind : Independent t directory (order ++ js)) (wf : t.WellFormed) (host : Host)
    (config : Config) :
    (attempts host config directory (sendAll host config directory t order) js).2 =
      sendAll host config directory t (order ++ js) ∧
    List.Forall₂ (Comes host config directory t)
      (attempts host config directory (sendAll host config directory t order) js).1 js := by
  induction js generalizing order with
  | nil => exact ⟨by rw [attempts, List.append_nil], .nil⟩
  | cons job js ih =>
      rw [List.append_cons] at ind ⊢
      obtain ⟨htree, halike⟩ :=
        (ind.sublist (List.sublist_append_left _ _)).valueOn_catalogOne wf host config
      obtain ⟨htrees, hrest⟩ := ih (order ++ [job]) ind
      simp only [attempts, htree]
      exact ⟨htrees, .cons ⟨rfl, halike⟩ hrest⟩

theorem sortByPath_recordAll {os : List Outcome} {js : List Job}
    (h : List.Forall₂ (Comes host config directory t) os js)
    (hsorted : js.Pairwise fun j k => Path.compare j.path k.path ≠ .gt) (count : Nat) :
    (Results.recordAll { discovered := count } os).sortByPath =
      Results.recordAll { discovered := count } os := by
  have hboth : List.Forall₂
      (fun o job => (∀ s, o.success? = some s → s.path = o.1.path) ∧ o.1 = job) os js :=
    h.imp fun o job hcomes => ⟨fun s hs => hcomes.path hs, hcomes.1⟩
  rw [List.forall₂_and_left, ← List.forall₂_map_left_iff, List.forall₂_eq_eq_eq] at hboth
  obtain ⟨hpaths, rfl⟩ := hboth
  rw [List.pairwise_map] at hsorted
  have hsuccesses : (os.filterMap Outcome.success?).Pairwise fun a b =>
      (Path.compare a.path b.path != .gt) = true := by
    rw [List.pairwise_filterMap]
    refine hsorted.imp_of_mem fun {o o'} ho ho' hle s hs s' hs' => ?_
    rw [hpaths o ho s hs, hpaths o' ho' s' hs', bne_iff_ne]
    exact hle
  have hfailures : (os.filterMap Outcome.failure?).Pairwise fun a b =>
      (Path.compare a.path b.path != .gt) = true := by
    rw [List.pairwise_filterMap]
    refine hsorted.imp fun {o o'} hle f hf f' hf' => ?_
    rcases o with ⟨job, e | s⟩ <;> cases hf
    rcases o' with ⟨job', e' | s'⟩ <;> cases hf'
    rw [bne_iff_ne]
    exact hle
  rw [Results.recordAll_eq, Results.sortByPath]
  simp only [List.nil_append, List.mergeSort_of_pairwise hsuccesses,
    List.mergeSort_of_pairwise hfailures]

/-! ### Turns -/

/-- What holds while workers take turns at the files of a batch. -/
structure Crew.Underway (host : Host) (config : Config) (directory : String) (t : FileTree)
    (files : List String) (c : Crew) : Prop where
  assigned : (c.workers.flatMap fun w => w.finished ++ w.waiting) = jobs files
  tree_eq : c.tree = sendAll host config directory t (c.workers.flatMap Worker.finished)
  parts : ∀ w ∈ c.workers, ∃ os, w.part = Results.recordAll {} os ∧
    List.Forall₂ (Comes host config directory t) os w.finished

namespace Crew

theorem underway_start (host : Host) (config : Config) (directory : String) (t : FileTree)
    (files : List String) : Underway host config directory t files (start host config files t) where
  assigned := by
    rw [start, List.flatMap_map, ← flatten_assignments (activeWorkers_pos config host) files]
    exact List.flatMap_id'
  tree_eq := by
    rw [start, List.flatMap_map, List.flatMap_eq_nil_iff.mpr fun share _ => rfl]
    rfl
  parts := by
    intro w hw
    obtain ⟨share, -, rfl⟩ := List.mem_map.mp hw
    exact ⟨[], rfl, .nil⟩

theorem Underway.turn {c c' : Crew} (h : Underway host config directory t files c)
    (hturn : Turn host config directory c c') (wf : t.WellFormed)
    (ind : Independent t directory (jobs files)) :
    Underway host config directory t files c' := by
  obtain ⟨before, after, finished, waiting, job, part, part', tree, tree', ok, hprocess⟩ := hturn
  obtain ⟨hassigned, htree, hparts⟩ := h
  dsimp only at hassigned htree hparts
  have hassigned' : ((before ++ ⟨finished ++ [job], waiting, part'⟩ :: after).flatMap
      fun w => w.finished ++ w.waiting) = jobs files := by
    rw [← hassigned]
    simp
  -- The file comes after those that are finished, wherever its worker stands.
  have hperm : ((before ++ ⟨finished, job :: waiting, part⟩ :: after).flatMap Worker.finished ++
      [job]).Perm
      ((before ++ ⟨finished ++ [job], waiting, part'⟩ :: after).flatMap Worker.finished) := by
    simp only [List.flatMap_append, List.flatMap_cons, List.append_assoc]
    exact (List.perm_append_comm.append_left _).append_left _
  have hsub : ((before ++ ⟨finished ++ [job], waiting, part'⟩ :: after).flatMap
      Worker.finished).Sublist (jobs files) := by
    rw [← hassigned']
    exact sublist_flatMap_finished _
  have ind' := (ind.sublist hsub).perm hperm.symm
  obtain ⟨hnext, halike⟩ := ind'.valueOn_catalogOne wf host config
  rw [valueOn_process, htree] at hprocess
  generalize valueOn (catalogOne host config directory job) _ = came at hprocess hnext halike
  obtain ⟨hrecorded, htree'⟩ := Prod.mk.inj hprocess
  have hpart := (Prod.mk.inj hrecorded).1
  refine ⟨hassigned', ?_, ?_⟩
  · exact htree'.symm.trans (hnext.trans (ind'.sendAll_perm hperm))
  · intro w hw
    rcases List.mem_append.mp hw with hw | hw
    · exact hparts w (List.mem_append_left _ hw)
    · rcases List.mem_cons.mp hw with rfl | hw
      · obtain ⟨os, hos, hcomes⟩ := hparts ⟨finished, job :: waiting, part⟩ (by simp)
        have hlast : List.Forall₂ (Comes host config directory t) [(job, came.1)] [job] :=
          .cons ⟨rfl, halike⟩ .nil
        refine ⟨os ++ [(job, came.1)], ?_, List.rel_append hcomes hlast⟩
        rw [Results.recordAll_append, ← hos]
        exact hpart.symm
      · exact hparts w (List.mem_append_right _ (List.mem_cons_of_mem _ hw))

theorem Underway.runs {c c' : Crew} (h : Underway host config directory t files c)
    (hruns : Runs host config directory c c') (wf : t.WellFormed)
    (ind : Independent t directory (jobs files)) :
    Underway host config directory t files c' := by
  induction hruns with
  | refl => exact h
  | tail _ hturn ih => exact ih.turn hturn wf ind

private theorem merge_parts {workers : List Worker}
    (h : ∀ w ∈ workers, ∃ os, w.part = Results.recordAll {} os ∧
      List.Forall₂ (Comes host config directory t) os w.finished) (r : Results) :
    ∃ os, (workers.map Worker.part).foldl Results.merge r = r.recordAll os ∧
      List.Forall₂ (Comes host config directory t) os (workers.flatMap Worker.finished) := by
  induction workers generalizing r with
  | nil => exact ⟨[], rfl, .nil⟩
  | cons w workers ih =>
      obtain ⟨os, hpart, hos⟩ := h w List.mem_cons_self
      obtain ⟨os', hparts, hos'⟩ := ih (fun w' hw' => h w' (List.mem_cons_of_mem _ hw'))
        (r.recordAll os)
      refine ⟨os ++ os', ?_, List.rel_append hos hos'⟩
      rw [List.map_cons, List.foldl_cons, hpart, Results.merge_recordAll, hparts,
        Results.recordAll_append]

/-- When all files are finished, the tree is that of all files and the parts of the workers are
outcomes of all files, in the order of the files. -/
theorem Underway.done {c : Crew} (h : Underway host config directory t files c) (hdone : c.Done)
    (found : Discovered t directory files) :
    c.tree = sendAll host config directory t (jobs files) ∧
    ∃ os, List.Forall₂ (Comes host config directory t) os (jobs files) ∧
      c.results host files.length =
        { Results.recordAll { discovered := files.length } os with
          elapsed := host.clock.elapsed } := by
  have hfinished : c.workers.flatMap Worker.finished = jobs files := by
    rw [← h.assigned]
    apply List.flatMap_congr
    intro w hw
    rw [hdone w hw, List.append_nil]
  obtain ⟨os, hmerged, hos⟩ := merge_parts h.parts { discovered := files.length }
  rw [hfinished] at hos
  refine ⟨by rw [h.tree_eq, hfinished], os, hos, ?_⟩
  rw [results, hmerged, sortByPath_recordAll hos found.sorted_jobs]

/-! ### The order of `parallel` -/

/-- One worker after another is one of the orders. -/
theorem runs_share (host : Host) (config : Config) (directory : String)
    (before after : List Worker) (finished waiting : List Job) (part : Results)
    (tree : FileTree) :
    Runs host config directory ⟨before ++ ⟨finished, waiting, part⟩ :: after, tree⟩
      ⟨before ++ ⟨finished ++ waiting, [], part.recordAll
          (attempts host config directory tree waiting).1⟩ :: after,
        (attempts host config directory tree waiting).2⟩ := by
  induction waiting generalizing finished part tree with
  | nil =>
      rw [List.append_nil]
      exact .refl
  | cons job waiting ih =>
      have hrest := ih (finished ++ [job])
        (part.record (job, (valueOn (catalogOne host config directory job) tree).1))
        (valueOn (catalogOne host config directory job) tree).2
      rw [List.append_assoc] at hrest
      exact .head (.next before after finished waiting job part _ tree _ _
        (valueOn_process host config directory part job tree)) hrest

theorem runs_shares (host : Host) (config : Config) (directory : String)
    (before : List Worker) (parts : List (List Job)) (tree : FileTree) :
    ∃ workers, Runs host config directory
        ⟨before ++ parts.map fun share => { waiting := share }, tree⟩
        ⟨before ++ workers, (attempts host config directory tree parts.flatten).2⟩ ∧
      (∀ w ∈ workers, w.waiting = []) ∧
      ∀ r, (workers.map Worker.part).foldl Results.merge r =
        r.recordAll (attempts host config directory tree parts.flatten).1 := by
  induction parts generalizing before tree with
  | nil => exact ⟨[], .refl, by simp, fun r => rfl⟩
  | cons share parts ih =>
      let worker : Worker := ⟨[] ++ share, [], Results.recordAll {}
        (attempts host config directory tree share).1⟩
      obtain ⟨workers, hruns, hdone, hparts⟩ :=
        ih (before ++ [worker]) (attempts host config directory tree share).2
      have hfirst := runs_share host config directory before
        (parts.map fun share => { waiting := share }) [] share {} tree
      refine ⟨worker :: workers, ?_, ?_, ?_⟩
      · rw [List.flatten_cons, attempts_append]
        rw [List.append_assoc, List.append_assoc] at hruns
        exact hfirst.trans hruns
      · intro w hw
        rcases List.mem_cons.mp hw with rfl | hw
        · rfl
        · exact hdone w hw
      · intro r
        rw [List.map_cons, List.foldl_cons, hparts, List.flatten_cons, attempts_append,
          Results.recordAll_append, Results.merge_recordAll]

end Crew

end Interleaving

theorem Discovered.nodup {t : FileTree} {directory : String} {files : List String}
    (found : Discovered t directory files) : files.Nodup :=
  nodup_of_apart found.apart

/-- A batch in shares, with one worker after the other, and a batch in turn give the same results
and the same tree. Each file is in one share, under its number in the list of files. Every other
order in which workers take the files of their shares leaves that tree and gives these results too.
Only where the way to the output directory leads through a missing directory and back may the order
show, and then only in the reason for which an output directory is unavailable. -/
theorem parallel_eq_sequential (host : Host) (config : Config) (directory : String) (t : FileTree)
    (wf : t.WellFormed) (hfast : config.failFast = false) :
    resultOn (parallel host config directory) t = resultOn (sequential host config directory) t ∧
    match outcome (discover host config t directory) with
    | .error e => resultOn (sequential host config directory) t = (.error e, t)
    | .ok files =>
      files.Nodup ∧ (assignments (config.activeWorkers host) files).flatten = jobs files ∧
      ∃ r u, resultOn (sequential host config directory) t = (.ok r, u) ∧
        r.discovered = files.length ∧ r.processed = files.length ∧
        (∃ c, Crew.Runs host config directory (Crew.start host config files t) c ∧ c.Done ∧
          c.tree = u ∧ c.results host files.length = r) ∧
        ∀ c, Crew.Runs host config directory (Crew.start host config files t) c → c.Done →
          c.tree = u ∧ (c.results host files.length).Agree (config.OutputDetours t) r ∧
          (¬ config.OutputDetours t → c.results host files.length = r) := by
  rw [resultOn_parallel host directory hfast, resultOn_sequential host directory hfast]
  rcases hdiscover : outcome (discover host config t directory) with e | files
  · exact ⟨rfl, rfl⟩
  have found := discovered_of_discover wf hdiscover
  have hflat := flatten_assignments (activeWorkers_pos config host) files
  have hspec : (attempts host config directory t (jobs files)).2 =
        sendAll host config directory t (jobs files) ∧
      List.Forall₂ (Comes host config directory t)
        (attempts host config directory t (jobs files)).1 (jobs files) :=
    Independent.attempts_spec [] (jobs files) found.independent wf host config
  obtain ⟨htree, hcomes⟩ := hspec
  have hsorted := sortByPath_recordAll hcomes found.sorted_jobs files.length
  dsimp only
  rw [hflat, hsorted]
  refine ⟨rfl, found.nodup, rfl, _, _, rfl, ?_, ?_, ?_, ?_⟩
  · rw [Results.recordAll_eq]
  · rw [Results.recordAll_eq]
    simp [hcomes.length_eq, length_jobs]
  · obtain ⟨workers, hruns, hdone, hparts⟩ := Crew.runs_shares host config directory []
      (assignments (config.activeWorkers host) files) t
    rw [hflat] at hruns hparts
    refine ⟨⟨workers, _⟩, hruns, hdone, rfl, ?_⟩
    rw [Crew.results, hparts, hsorted]
  · intro c hruns hdone
    have hunderway := (Crew.underway_start host config directory t files).runs hruns wf
      found.independent
    obtain ⟨htree', os, hos, hresults⟩ := hunderway.done hdone found
    have halike := alike_of_comes hos hcomes
    refine ⟨htree'.trans htree.symm, ?_, fun hdetour => ?_⟩
    · rw [hresults]
      exact agree_recordAll halike _ _ _
    · have hsame := halike.imp fun o o' h => Outcome.Alike.eq hdetour h
      rw [List.forall₂_eq_eq_eq] at hsame
      rw [hresults, hsame]

/-! ### Two sources -/

def twoSources : FileTree :=
  ((({} : FileTree).put ["d"] .directory).put ["d", "a.c"] (.file "int x;\n".toUTF8)).put
    ["d", "b.c"] (.file "int y;\n".toUTF8)

theorem wellFormed_twoSources : twoSources.WellFormed := by
  have hd : (({} : FileTree).put ([] ++ ["d"]) .directory).WellFormed :=
    FileTree.wellFormed_empty.put rfl (by constructor <;> decide) (by decide) fun _ => rfl
  have ha : ((({} : FileTree).put ["d"] .directory).put (["d"] ++ ["a.c"])
      (.file "int x;\n".toUTF8)).WellFormed :=
    hd.put rfl (by constructor <;> decide) (by decide) (by nofun)
  change FileTree.WellFormed (FileTree.put _ (["d"] ++ ["b.c"]) _)
  exact ha.put rfl (by constructor <;> decide) (by decide) (by nofun)

theorem discover_twoSources {config : Config} (hrecursive : config.recursive = true)
    (hall : config.maxFiles = none) :
    outcome (discover {} config twoSources "d") = .ok ["d/a.c", "d/b.c"] := by
  have hdirectory : twoSources.isDirectory "d" = true := by decide +kernel
  have hsources : sources twoSources "d" true = ["d/a.c", "d/b.c"] := by decide +kernel
  have hsorted : sortedSources twoSources "d" config.recursive = ["d/a.c", "d/b.c"] := by
    rw [sortedSources, hrecursive, hsources, byPath_of_pairwise (by decide +kernel)]
  exact discover_all hall (fun _ => rfl) hdirectory hsorted (List.cons_ne_nil _ _) (by decide)

theorem parallel_eq_sequential_twoSources :
    twoSources.WellFormed ∧ ({ workers := 2 } : Config).failFast = false ∧
    ∃ r u, resultOn (parallel {} { workers := 2 } "d") twoSources = (.ok r, u) ∧
      resultOn (sequential {} { workers := 2 } "d") twoSources = (.ok r, u) ∧
      r.successes.map Success.path = ["d/a.c", "d/b.c"] ∧
      ∀ c, Crew.Runs {} { workers := 2 } "d"
          (Crew.start {} { workers := 2 } ["d/a.c", "d/b.c"] twoSources) c → c.Done →
        c.tree = u ∧ c.results {} 2 = r := by
  have hdiscover : outcome (discover {} { workers := 2 } twoSources "d") =
      .ok ["d/a.c", "d/b.c"] := discover_twoSources rfl rfl
  have hdetour : ¬ ({ workers := 2 } : Config).OutputDetours twoSources := by
    rintro ⟨front, piece, back, there, hsteps, -, -, hup⟩
    have hmem : ".." ∈ Path.steps ({ workers := 2 } : Config).preferences.output.directory := by
      rw [hsteps]
      exact List.mem_append_right _ (List.mem_cons_of_mem _ hup)
    exact absurd hmem (by decide +kernel)
  obtain ⟨hsame, hfiles⟩ :=
    parallel_eq_sequential {} { workers := 2 } "d" twoSources wellFormed_twoSources rfl
  rw [hdiscover] at hfiles
  obtain ⟨-, -, r, u, hsequential, -, -, -, hruns⟩ := hfiles
  refine ⟨wellFormed_twoSources, rfl, r, u, hsame.trans hsequential, hsequential, ?_, ?_⟩
  · rw [resultOn_sequential {} "d" rfl, hdiscover] at hsequential
    obtain rfl := Except.ok.inj (Prod.mk.inj hsequential).1
    decide +kernel
  · intro c hc hdone
    obtain ⟨htree, -, hresults⟩ := hruns c hc hdone
    exact ⟨htree, hresults hdetour⟩

/-- Catalogs next to the sources, by a way through a directory that is missing. -/
def throughMissing : Config :=
  { workers := 2, preferences := { output := { directory := "new/../d" } } }

/-- Two workers with one file each are done, the second before the first. -/
def Crew.backward (host : Host) (config : Config) (directory : String) (t : FileTree)
    (a b : Job) : Crew :=
  let (x, u) := valueOn (process host config directory {} b) t
  let (y, v) := valueOn (process host config directory {} a) u
  ⟨[⟨[a], [], y.1⟩, ⟨[b], [], x.1⟩], v⟩

theorem Crew.runs_backward (host : Host) (config : Config) (directory : String) (t : FileTree)
    (a b : Job) :
    Runs host config directory ⟨[{ waiting := [a] }, { waiting := [b] }], t⟩
      (backward host config directory t a b) := by
  have hb : Turn host config directory ⟨[{ waiting := [a] }, { waiting := [b] }], t⟩ _ :=
    .next [{ waiting := [a] }] [] [] [] b {} _ t _ _ rfl
  exact .tail (.single hb) (.next [] [_] [] [] a {} _ _ _ _ rfl)

/-- There the order shows: the file that comes first makes the missing directory and fails for
another reason than the one that finds it. -/
theorem failures_differ_throughMissing :
    twoSources.WellFormed ∧ throughMissing.failFast = false ∧
    outcome (discover {} throughMissing twoSources "d") = .ok ["d/a.c", "d/b.c"] ∧
    ∃ r u c, resultOn (sequential {} throughMissing "d") twoSources = (.ok r, u) ∧
      Crew.Runs {} throughMissing "d"
        (Crew.start {} throughMissing ["d/a.c", "d/b.c"] twoSources) c ∧ c.Done ∧
      r.failures.map (fun f => (f.path, f.error.message)) = [
        ("d/a.c", "Catalog output failed: Output directory unavailable: new/../d/a.c: "
          ++ "File exists (os error 17)"),
        ("d/b.c", "Catalog output failed: Output directory unavailable: new/../d/b.c: "
          ++ "exists and is not a directory")] ∧
      (c.results {} 2).failures.map (fun f => (f.path, f.error.message)) = [
        ("d/a.c", "Catalog output failed: Output directory unavailable: new/../d/a.c: "
          ++ "exists and is not a directory"),
        ("d/b.c", "Catalog output failed: Output directory unavailable: new/../d/b.c: "
          ++ "File exists (os error 17)")] := by
  have hdiscover : outcome (discover {} throughMissing twoSources "d") =
      .ok ["d/a.c", "d/b.c"] := discover_twoSources rfl rfl
  have hfast : throughMissing.failFast = false := rfl
  have hsequential := resultOn_sequential {} "d" hfast twoSources
  rw [hdiscover] at hsequential
  refine ⟨wellFormed_twoSources, hfast, hdiscover, _, _,
    Crew.backward {} throughMissing "d" twoSources ⟨0, "d/a.c"⟩ ⟨1, "d/b.c"⟩, hsequential,
    Crew.runs_backward {} throughMissing "d" twoSources ⟨0, "d/a.c"⟩ ⟨1, "d/b.c"⟩, ?_, ?_, ?_⟩
  · intro w hw
    rcases List.mem_pair.mp hw with rfl | rfl <;> rfl
  · decide +kernel
  · simp only [Crew.results, Results.sortByPath]
    rw [List.mergeSort_of_pairwise (by decide +kernel)]
    decide +kernel

end CInventory.Batch
