import Mathlib
import CInventory.Diagnostic.Session
import CInventory.Proofs.Accounting
import CInventory.Proofs.BatchOrder
import CInventory.Proofs.Said

/-!
# Diagnostics of a batch

What a batch says is collected file by file. If nothing was dropped, the summary of the collector
agrees with the results of the batch: each file is named, each file that failed has one error, and
no other file has any. The order of the entries is of no account, so several workers may speak at
the same time.
-/

namespace CInventory.Diagnostic

open Collector (Act named recorded)

/-! ## Replaying a log -/

namespace Session

/-- The call on the collector that an entry comes to when no file is current. -/
def act? (s : Session) : Entry → Option Act
  | .visit ctx => some (.visit ctx)
  | .post (some ctx) e =>
    if e.isError || e.isWarning then some (.record ctx.path (s.decorate (some ctx) e)) else none
  | .post none _ => none
  | .print _ => none

def tell (s : Session) (entry : Entry) (c : Collector) : Collector :=
  (s.act? entry).elim c (Act.apply s.limits c)

def acts (s : Session) (log : Log) : List Act := log.filterMap s.act?

theorem acts_append (s : Session) (log log' : Log) :
    s.acts (log ++ log') = s.acts log ++ s.acts log' :=
  List.filterMap_append

private theorem foldl_acts_cons (s : Session) (entry : Entry) (log : Log) (c : Collector) :
    (s.acts (entry :: log)).foldl (Act.apply s.limits) c =
      (s.acts log).foldl (Act.apply s.limits) (s.tell entry c) := by
  rw [acts, List.filterMap_cons, tell]
  cases s.act? entry <;> rfl

theorem level_decorate (s : Session) (ctx : Option FileContext) (e : Event) :
    (s.decorate ctx e).level = e.level := by
  unfold decorate
  split
  · split <;> rfl
  · rfl

theorem isError_decorate (s : Session) (ctx : Option FileContext) (e : Event) :
    (s.decorate ctx e).isError = e.isError := by
  rw [Event.isError, level_decorate, ← Event.isError]

theorem isWarning_decorate (s : Session) (ctx : Option FileContext) (e : Event) :
    (s.decorate ctx e).isWarning = e.isWarning := by
  rw [Event.isWarning, level_decorate, ← Event.isWarning]

private theorem emit_eq (s : Session) (e : Event) : ∃ err, s.emit e = { s with stderr := err } := by
  unfold emit
  split
  · split
    · exact ⟨_, rfl⟩
    · exact ⟨_, rfl⟩
  · exact ⟨_, rfl⟩

private theorem dispatch_eq (s : Session) (ctx : Option FileContext) (e : Event) :
    ∃ err, s.dispatch ctx e =
      { s with
        collector := s.collector.map (s.tell (.post ctx e))
        stderr := err } := by
  obtain ⟨err, herr⟩ := emit_eq { s with collector := s.collector.map (s.tell (.post ctx e)) }
    (s.decorate ctx e)
  refine ⟨err, Eq.trans ?_ herr⟩
  unfold dispatch
  dsimp only
  congr 2
  rw [isError_decorate, isWarning_decorate]
  cases ctx <;> cases s.collector <;> cases hkeeps : e.isError || e.isWarning <;>
    simp [tell, act?, hkeeps, Act.apply]

/-- An entry prints something and calls the collector at most once. -/
theorem perform_eq {s : Session} (hcontext : s.context = none) (entry : Entry) :
    ∃ out err, s.perform entry =
      { s with
        collector := s.collector.map (s.tell entry)
        stdout := out
        stderr := err } := by
  cases entry with
  | visit ctx => exact ⟨_, _, rfl⟩
  | print line =>
    refine ⟨s.stdout ++ (line ++ "\n"), s.stderr, ?_⟩
    show s.printLine line = { s with collector := s.collector.map id, stdout := _ }
    rw [Option.map_id]
    rfl
  | post ctx e =>
    have hpost : s.perform (.post ctx e) = s.dispatch ctx e := by
      cases ctx with
      | none =>
        show s.dispatch s.context e = _
        rw [hcontext]
      | some ctx => rfl
    obtain ⟨err, herr⟩ := dispatch_eq s ctx e
    exact ⟨s.stdout, err, hpost.trans herr⟩

/-- A log prints something and makes its calls on the collector in order. -/
theorem replay_eq {s : Session} (hcontext : s.context = none) (log : Log) :
    ∃ out err, s.replay log =
      { s with
        collector := s.collector.map fun c => (s.acts log).foldl (Act.apply s.limits) c
        stdout := out
        stderr := err } := by
  induction log generalizing s with
  | nil =>
    refine ⟨s.stdout, s.stderr, ?_⟩
    show s = { s with collector := s.collector.map id }
    rw [Option.map_id]
    rfl
  | cons entry log ih =>
    obtain ⟨out, err, hfirst⟩ := perform_eq hcontext entry
    obtain ⟨out', err', hrest⟩ := ih (s := s.perform entry) (by rw [hfirst]; exact hcontext)
    refine ⟨out', err', hrest.trans ?_⟩
    rw [hfirst]
    dsimp only
    rw [Option.map_map]
    simp only [foldl_acts_cons]
    rfl

private theorem emit_context (s : Session) (current : Option FileContext) (e : Event) :
    emit { s with context := current } e = { s.emit e with context := current } := by
  obtain ⟨limits, environment, timestamp, preferences, logger, collector⟩ := s
  cases logger with
  | none => rfl
  | some logger =>
    unfold emit
    dsimp only
    split <;> rfl

private theorem dispatch_context (s : Session) (current ctx : Option FileContext) (e : Event) :
    dispatch { s with context := current } ctx e = { s.dispatch ctx e with context := current } :=
  emit_context { s with collector := _ } current _

/-- While a file is current, events that belong to no file belong to it. -/
theorem perform_current (s : Session) (ctx : FileContext) (entry : Entry) :
    perform { s with context := some ctx } entry =
      { s.perform (entry.within ctx) with context := some ctx } ∧
    (s.perform (entry.within ctx)).context = s.context := by
  cases entry with
  | visit ctx' => exact ⟨rfl, rfl⟩
  | print line => exact ⟨rfl, rfl⟩
  | post ctx' e =>
    have hframe : ∀ file, (s.dispatch file e).context = s.context := by
      intro file
      obtain ⟨err, herr⟩ := dispatch_eq s file e
      rw [herr]
    cases ctx' with
    | none => exact ⟨dispatch_context s (some ctx) (some ctx) e, hframe (some ctx)⟩
    | some ctx' => exact ⟨dispatch_context s (some ctx) (some ctx') e, hframe (some ctx')⟩

/-- A log in a file's name is what making the file current, replaying and going back comes to. -/
theorem replay_within (s : Session) (ctx : FileContext) (log : Log) :
    s.replay (Log.within ctx log) = ((s.enter ctx).replay log).leave s.context := by
  suffices h : ∀ s : Session, (log.map (Entry.within ctx)).foldl perform s =
      (log.foldl perform { s with context := some ctx }).leave s.context from h (s.perform _)
  induction log with
  | nil => exact fun _ => rfl
  | cons entry log ih =>
    intro s
    obtain ⟨hentry, hcontext⟩ := perform_current s ctx entry
    rw [List.map_cons, List.foldl_cons, List.foldl_cons, ih, hentry, hcontext]

theorem sinceClear_acts (s : Session) (log : Log) :
    Collector.sinceClear (s.acts log) = s.acts log := by
  refine sinceClearing_of_none fun a ha => ?_
  obtain ⟨entry, -, hentry⟩ := List.mem_filterMap.mp ha
  cases a with
  | record path e => rfl
  | visit ctx => rfl
  | clear =>
    unfold act? at hentry
    split at hentry
    · cases hentry
    · split at hentry <;> cases hentry
    · cases hentry
    · cases hentry

/-- What is said in a file's name is recorded for the file, if it is recorded at all. -/
theorem acts_within (s : Session) (ctx : FileContext) {log : Log} (h : log.Loose) :
    ∃ events : List Event,
      s.acts (Log.within ctx log) = .visit ctx :: events.map (.record ctx.path) ∧
      events.countP Event.isError = log.countP Entry.isError := by
  suffices hmap : ∃ events : List Event,
      s.acts (log.map (Entry.within ctx)) = events.map (.record ctx.path) ∧
      events.countP Event.isError = log.countP Entry.isError by
    obtain ⟨events, hacts, hcount⟩ := hmap
    exact ⟨events, congrArg (Act.visit ctx :: ·) hacts, hcount⟩
  induction log with
  | nil => exact ⟨[], rfl, rfl⟩
  | cons entry log ih =>
    obtain ⟨hentry, hlog⟩ := List.forall_mem_cons.mp h
    obtain ⟨events, hacts, hcount⟩ := ih hlog
    cases entry with
    | visit ctx' => cases hentry
    | print line => exact ⟨events, hacts, hcount⟩
    | post ctx' e =>
      cases ctx' with
      | some ctx' => cases hentry
      | none =>
        cases hkeeps : e.isError || e.isWarning with
        | true =>
          refine ⟨s.decorate (some ctx) e :: events, ?_, ?_⟩
          · show s.acts (.post (some ctx) e :: log.map (Entry.within ctx)) = _
            rw [acts, List.filterMap_cons, ← acts, act?, hkeeps, hacts]
            rfl
          · rw [List.countP_cons, List.countP_cons, isError_decorate, hcount]
            rfl
        | false =>
          refine ⟨events, ?_, ?_⟩
          · show s.acts (.post (some ctx) e :: log.map (Entry.within ctx)) = _
            rw [acts, List.filterMap_cons, ← acts, act?, hkeeps, hacts]
            rfl
          · have herror : e.isError = false := (Bool.or_eq_false_iff.mp hkeeps).1
            rw [List.countP_cons, hcount]
            simp [Entry.isError, herror]

theorem acts_of_loose (s : Session) {log : Log} (h : log.Loose) : s.acts log = [] := by
  refine List.filterMap_eq_nil_iff.mpr fun entry hentry => ?_
  have hloose := h entry hentry
  cases entry with
  | visit ctx => cases hloose
  | print line => rfl
  | post ctx e =>
    cases ctx with
    | none => rfl
    | some ctx => cases hloose

end Session

end CInventory.Diagnostic

/-! ## What a batch tells the collector -/

namespace CInventory.Batch

open Diagnostic Output
open Diagnostic.Collector (Act named recorded)

namespace Outcome

/-- The file, however its path is spelled. -/
def key (o : Outcome) : List Path.Component := Path.components o.1.path

def failed (o : Outcome) : Bool := o.failure?.isSome

theorem path_of_failure? {o : Outcome} {f : Failure} (h : o.failure? = some f) :
    f.path = o.1.path := by
  obtain ⟨job, e | success⟩ := o <;> cases h
  rfl

end Outcome

/-- Calls on a collector that name the files of some outcomes, with one error for each failure. -/
structure Tells (acts : List Act) (os : List Outcome) : Prop where
  named_eq : named acts = (os.map Outcome.key).toFinset
  errors_eq : ∀ key, (recorded key acts).countP Event.isError =
    os.countP fun o => o.key = key ∧ o.failed

namespace Tells

theorem nil : Tells [] [] := ⟨rfl, fun _ => rfl⟩

theorem append {acts acts' : List Act} {os os' : List Outcome} (h : Tells acts os)
    (h' : Tells acts' os') : Tells (acts ++ acts') (os ++ os') where
  named_eq := by
    rw [Collector.named_append, h.named_eq, h'.named_eq, List.map_append, List.toFinset_append]
  errors_eq key := by
    rw [Collector.recorded_append, List.countP_append, List.countP_append, h.errors_eq,
      h'.errors_eq]

theorem perm {acts acts' : List Act} {os : List Outcome} (h : Tells acts os)
    (hperm : acts'.Perm acts) : Tells acts' os where
  named_eq := by
    rw [named, List.toFinset_eq_of_perm _ _ (hperm.filterMap _)]
    exact h.named_eq
  errors_eq key := by
    rw [recorded, (hperm.filterMap _).countP_eq]
    exact h.errors_eq key

end Tells

/-! ### One file -/

def FileTells (path : String) (errors : Nat) (acts : List Act) : Prop :=
  named acts = {Path.components path} ∧
    ∀ key, (recorded key acts).countP Event.isError =
      if Path.components path = key then errors else 0

theorem fileTells_within (s : Session) (ctx : FileContext) {log : Log} (h : log.Loose) :
    FileTells ctx.path (log.countP Entry.isError) (s.acts (Log.within ctx log)) := by
  obtain ⟨events, hacts, hcount⟩ := s.acts_within ctx h
  rw [hacts, ← hcount]
  constructor
  · ext key
    simp +contextual [named, Act.file?, List.filterMap_map, eq_comm]
  · intro key
    have hrecorded : recorded key (.visit ctx :: events.map (.record ctx.path)) =
        if Path.components ctx.path = key then events else [] := by
      show (events.map (Act.record ctx.path)).filterMap (Act.eventOf? key) = _
      rw [List.filterMap_map]
      by_cases hkey : Path.components ctx.path = key <;>
        simp [Function.comp_def, Act.eventOf?, hkey]
    rw [hrecorded]
    split <;> rfl

theorem FileTells.append {path : String} {m n : Nat} {acts acts' : List Act}
    (h : FileTells path m acts) (h' : FileTells path n acts') :
    FileTells path (m + n) (acts ++ acts') := by
  constructor
  · rw [Collector.named_append, h.1, h'.1, Finset.union_self]
  · intro key
    rw [Collector.recorded_append, List.countP_append, h.2, h'.2]
    split <;> rfl

section Jobs

variable (s : Session) (host : Host) (config : Config) (directory : String)

theorem fileTells_ofFile (prefs : Preferences) (t : FileTree) (path : String) (id : Nat) :
    FileTells path (if (outcome (Catalog.ofFile host prefs t path id)).isOk then 0 else 1)
      (s.acts (said (Catalog.ofFile host prefs t path id))) := by
  obtain ⟨log, hsaid, hloose, hcount⟩ := Catalog.said_ofFile host prefs t path id
  rw [hsaid, ← hcount]
  exact fileTells_within s ⟨path, id⟩ hloose

/-- A file is told of with one error if it fails, whether in reading or in writing. -/
theorem fileTells_catalogOne (job : Job) (t : FileTree) :
    FileTells job.path
      (if (valueOn (catalogOne host config directory job) t).1.isOk then 0 else 1)
      (s.acts (saidOn (catalogOne host config directory job) t)) := by
  have hfile := fileTells_ofFile s host config.preferences t job.path job.id
  have hvalue := valueOn_catalogOne host config directory job t
  rcases hcatalog : outcome (Catalog.ofFile host config.preferences t job.path job.id) with
    e | catalog <;> rw [hcatalog] at hfile hvalue
  · rw [hvalue, saidOn_catalogOne, Catalog.saidOn_ofFileTo_error host job.path job.id hcatalog,
      ite_self]
    exact hfile
  · dsimp only at hvalue
    by_cases hwrite : config.write = true
    · let d := (writerFor config directory job.path).destination host
      have hwriting : s.acts (saidOn (d.write catalog.inventory).run t) = [] :=
        s.acts_of_loose (FileWriter.saysLoose_write _ host catalog.inventory t)
      rw [if_pos hwrite] at hvalue
      rw [saidOn_catalogOne, if_pos hwrite,
        Catalog.saidOn_ofFileTo_ok host job.path job.id hcatalog]
      rcases hwritten : resultOn ((writerFor config directory job.path).write host
        catalog.inventory) t with ⟨e | written, u⟩ <;> rw [hwritten] at hvalue
      -- The writer's own error belongs to no file; only the one behind it is recorded.
      · have hsaid := Catalog.saidOn_store_error host job.path job.id (d := d) hwritten
        rw [hvalue, hsaid, s.acts_append, s.acts_append, hwriting, List.nil_append]
        exact hfile.append (fileTells_within s ⟨job.path, job.id⟩ (Log.loose_post _))
      · have hsaid := Catalog.saidOn_store_ok host job.path job.id (d := d) hwritten
        rw [hvalue, hsaid, s.acts_append, hwriting, List.append_nil]
        exact hfile
    · rw [if_neg hwrite] at hvalue
      rw [hvalue, saidOn_catalogOne, if_neg hwrite]
      exact hfile

theorem tells_catalogOne (job : Job) (t : FileTree) :
    Tells (s.acts (saidOn (catalogOne host config directory job) t))
      [(job, (valueOn (catalogOne host config directory job) t).1)] := by
  obtain ⟨hnamed, herrors⟩ := fileTells_catalogOne s host config directory job t
  constructor
  · rw [hnamed]
    rfl
  · intro key
    rw [herrors, List.countP_singleton]
    rcases (valueOn (catalogOne host config directory job) t).1 with e | success <;>
      by_cases hkey : Path.components job.path = key <;>
      simp [Outcome.key, Outcome.failed, hkey, Except.isOk, Except.toBool]

/-- What some files, one after the other, tell the collector. -/
def jobActs (t : FileTree) : List Job → List Act
  | [] => []
  | job :: rest =>
    s.acts (saidOn (catalogOne host config directory job) t) ++
      jobActs (valueOn (catalogOne host config directory job) t).2 rest

theorem tells_jobActs (t : FileTree) (js : List Job) :
    Tells (jobActs s host config directory t js) (attempts host config directory t js).1 := by
  induction js generalizing t with
  | nil => exact Tells.nil
  | cons job js ih => exact (tells_catalogOne s host config directory job t).append (ih _)

theorem jobActs_append (t : FileTree) (js ks : List Job) :
    jobActs s host config directory t (js ++ ks) =
      jobActs s host config directory t js ++
        jobActs s host config directory (attempts host config directory t js).2 ks := by
  induction js generalizing t with
  | nil => rfl
  | cons job js ih => simp only [List.cons_append, jobActs, attempts, ih, List.append_assoc]

private theorem acts_saidOn_process (r : Results) (job : Job) (t : FileTree) :
    s.acts (saidOn (process host config directory r job) t) =
      s.acts (saidOn (catalogOne host config directory job) t) := by
  unfold process
  rw [saidOn_bind, s.acts_append]
  rcases valueOn (catalogOne host config directory job) t with ⟨e | success, u⟩
  · exact List.append_nil _
  · exact List.append_nil _

theorem acts_saidOn_found (e : Event) (work : List String → Work (Except Error Results))
    {t : FileTree} {files : List String}
    (h : outcome (discover host config t directory) = .ok files) :
    s.acts (saidOn (do
        note (Log.post e)
        match ← StateT.lift (discover host config (← get) directory).run with
        | .error e => return .error e
        | .ok files => work files) t) = s.acts (saidOn (work files) t) := by
  have hdiscover : s.acts (said (discover host config t directory)) = [] :=
    s.acts_of_loose (saidLoose_discover host config t directory)
  simp only [saidOn_bind, note, saidOn_lift, valueOn_lift, valueOn_get]
  rw [← outcome, h, ← said]
  simp only [s.acts_append, hdiscover]
  rfl

variable {config} (hfast : config.failFast = false)

include hfast

private theorem acts_saidOn_runInTurn (count : Nat) (r : Results) (js : List Job) (t : FileTree) :
    s.acts (saidOn (runInTurn host config directory count r js) t) =
      jobActs s host config directory t js := by
  induction js generalizing r t with
  | nil => rfl
  | cons job js ih =>
    have hnote : ∀ x : Work Results, s.acts (saidOn (do
        if config.progress then
          note [.print s!"Cataloging file {job.id + 1} of {count}: {job.path}"]
        x) t) = s.acts (saidOn x t) := by
      intro x
      cases config.progress <;> rfl
    rw [runInTurn, hnote, saidOn_bind, s.acts_append, acts_saidOn_process, valueOn_process]
    dsimp only
    rw [hfast, Bool.and_false, if_neg Bool.false_ne_true, ih]
    rfl

private theorem acts_saidOn_runShare (r : Results) (js : List Job) (t : FileTree) :
    s.acts (saidOn (runShare host config directory r false js) t) =
      jobActs s host config directory t js := by
  induction js generalizing r t with
  | nil => rfl
  | cons job js ih =>
    rw [runShare, if_neg Bool.false_ne_true, saidOn_bind, s.acts_append, acts_saidOn_process,
      valueOn_process]
    simp only [hfast, Bool.and_false]
    rw [ih]
    rfl

private theorem acts_saidOn_runShares (r : Results) (parts : List (List Job)) (t : FileTree) :
    s.acts (saidOn (runShares host config directory r false parts) t) =
      jobActs s host config directory t parts.flatten := by
  induction parts generalizing r t with
  | nil => rfl
  | cons share parts ih =>
    rw [runShares, saidOn_bind, s.acts_append, acts_saidOn_runShare s host directory hfast,
      valueOn_runShare host directory hfast]
    dsimp only
    rw [ih, List.flatten_cons, jobActs_append]

theorem acts_saidOn_run {t : FileTree} {files : List String}
    (h : outcome (discover host config t directory) = .ok files) :
    s.acts (saidOn (run host config directory).run t) =
      jobActs s host config directory t (jobs files) := by
  unfold run
  split
  · refine (acts_saidOn_found s host config directory _ _ h).trans ?_
    rw [saidOn_bind, s.acts_append, acts_saidOn_runInTurn s host directory hfast]
    exact List.append_nil _
  · refine (acts_saidOn_found s host config directory _ _ h).trans ?_
    rw [saidOn_bind, s.acts_append, acts_saidOn_runShares s host directory hfast,
      flatten_assignments (activeWorkers_pos config host) files]
    exact List.append_nil _

end Jobs

/-! ## Agreement -/

structure Diagnosed (c : Collector) (r : Results) : Prop where
  totalFiles_eq : c.summary.totalFiles = r.processed
  failedFiles_eq : c.summary.failedFiles = r.failureCount
  totalErrors_eq : c.summary.totalErrors = r.failureCount
  one_error : ∀ f ∈ r.failures, (c.errors f.path).length = 1
  errors_iff : ∀ path, c.errors path ≠ [] ↔
    ∃ f ∈ r.failures, Path.components f.path = Path.components path

private theorem sum_failed {os : List Outcome} {files : Finset (List Path.Component)}
    (h : ∀ o ∈ os, o.key ∈ files) :
    (∑ key ∈ files, os.countP fun o => o.key = key ∧ o.failed) = os.countP Outcome.failed := by
  induction os with
  | nil => exact Finset.sum_const_zero
  | cons o os ih =>
    obtain ⟨ho, hos⟩ := List.forall_mem_cons.mp h
    simp only [List.countP_cons, Finset.sum_add_distrib, ih hos]
    cases hfailed : o.failed <;> simp [ho]

private theorem countP_failed_le {os : List Outcome} (h : (os.map Outcome.key).Nodup)
    (key : List Path.Component) : (os.countP fun o => o.key = key ∧ o.failed) ≤ 1 := by
  have hcount := List.nodup_iff_count_le_one.mp h key
  rw [List.count_eq_countP, List.countP_map] at hcount
  refine Nat.le_trans (List.countP_mono_left ?_) hcount
  intro o _ ho
  have hkey : o.key = key := (decide_eq_true_eq.mp ho).1
  simp [hkey]

theorem exists_failed_iff {os : List Outcome} {key : List Path.Component} :
    (∃ o ∈ os, o.key = key ∧ o.failed) ↔
      ∃ f ∈ os.filterMap Outcome.failure?, Path.components f.path = key := by
  constructor
  · rintro ⟨o, ho, rfl, hfailed⟩
    obtain ⟨f, hf⟩ := Option.isSome_iff_exists.mp hfailed
    refine ⟨f, List.mem_filterMap.mpr ⟨o, ho, hf⟩, ?_⟩
    rw [Outcome.path_of_failure? hf]
    rfl
  · rintro ⟨f, hf, rfl⟩
    obtain ⟨o, ho, hfailure⟩ := List.mem_filterMap.mp hf
    refine ⟨o, ho, ?_, Option.isSome_of_mem hfailure⟩
    rw [Outcome.path_of_failure? hfailure]
    rfl

section Agreement

variable {limits : Limits} {acts : List Act} {c : Collector} {os : List Outcome} {r : Results}

theorem Tells.diagnosed (tells : Tells acts os) (ledger : Collector.Ledger limits acts c)
    (hdropped : c.dropped = 0) (hkeys : (os.map Outcome.key).Nodup)
    (hprocessed : r.processed = os.length)
    (hfailures : r.failures.Perm (os.filterMap Outcome.failure?)) : Diagnosed c r := by
  have hkept : ∀ key, (c.kept key).countP Event.isError =
      os.countP fun o => o.key = key ∧ o.failed := by
    intro key
    rw [ledger.whole key (.inl hdropped), tells.errors_eq]
  have herrors : ∀ path, (c.errors path).length =
      os.countP fun o => o.key = Path.components path ∧ o.failed := by
    intro path
    rw [Collector.errors, ← List.countP_eq_length_filter, Collector.events_eq_kept, hkept]
  have hcount : r.failureCount = os.countP Outcome.failed := by
    rw [Results.failureCount, hfailures.length_eq, List.length_filterMap_eq_countP]
    rfl
  have hsum : (∑ key ∈ named acts, os.countP fun o => o.key = key ∧ o.failed) =
      r.failureCount := by
    rw [hcount, tells.named_eq]
    refine sum_failed fun o ho => ?_
    rw [List.mem_toFinset]
    exact List.mem_map_of_mem ho
  have hfailed : ∀ path, 0 < (c.errors path).length ↔
      ∃ f ∈ r.failures, Path.components f.path = Path.components path := by
    intro path
    rw [herrors, List.countP_pos_iff]
    simp only [decide_eq_true_eq, exists_failed_iff, hfailures.mem_iff]
  refine ⟨?_, ?_, ?_, ?_, ?_⟩
  · rw [ledger.summary_eq, hprocessed, tells.named_eq, List.toFinset_card_of_nodup hkeys,
      List.length_map]
  · rw [ledger.summary_eq, ← hsum]
    dsimp only
    rw [Finset.card_filter]
    refine Finset.sum_congr rfl fun key _ => ?_
    have hle := countP_failed_le hkeys key
    simp only [Collector.failed, Collector.any_eq_countP, hkept, decide_eq_true_eq]
    split <;> omega
  · rw [ledger.summary_eq, ← hsum]
    exact Finset.sum_congr (Eq.refl (named acts)) fun key _ => hkept key
  · intro f hf
    have hpos := (hfailed f.path).mpr ⟨f, hf, rfl⟩
    have hle := countP_failed_le hkeys (Path.components f.path)
    rw [← herrors] at hle
    omega
  · intro path
    rw [← hfailed, List.length_pos_iff]

end Agreement

section Runs

variable {host : Host} {config : Config} {directory : String} {t u : FileTree}
  {files : List String} {r : Results}

theorem map_fst_attempts (host : Host) (config : Config) (directory : String) (t : FileTree)
    (js : List Job) : (attempts host config directory t js).1.map Prod.fst = js := by
  induction js generalizing t with
  | nil => rfl
  | cons job js ih => exact congrArg (job :: ·) (ih _)

theorem Discovered.nodup_keys (found : Discovered t directory files) (host : Host)
    (config : Config) (u : FileTree) :
    ((attempts host config directory u (jobs files)).1.map Outcome.key).Nodup := by
  have hkeys : (attempts host config directory u (jobs files)).1.map Outcome.key =
      files.map Path.components := by
    have hfst := map_fst_attempts host config directory u (jobs files)
    calc (attempts host config directory u (jobs files)).1.map Outcome.key
        = ((attempts host config directory u (jobs files)).1.map Prod.fst).map
            (Path.components ·.path) := by rw [List.map_map]; rfl
      _ = ((jobs files).map Job.path).map Path.components := by rw [hfst, List.map_map]; rfl
      _ = files.map Path.components := by rw [map_path_jobs]
  rw [hkeys]
  refine List.pairwise_map.mpr (found.apart.imp ?_)
  intro f g happart hcomponents
  exact happart.1 (Path.steps_of_components hcomponents ▸ List.prefix_rfl)

theorem results_of_run (hfast : config.failFast = false)
    (hrun : resultOn (run host config directory) t = (.ok r, u)) :
    ∃ files, outcome (discover host config t directory) = .ok files ∧
      r.processed = (attempts host config directory t (jobs files)).1.length ∧
      r.failures.Perm
        ((attempts host config directory t (jobs files)).1.filterMap Outcome.failure?) := by
  unfold run at hrun
  split at hrun
  · rw [resultOn_sequential host directory hfast] at hrun
    rcases hdiscover : outcome (discover host config t directory) with e | files <;>
      rw [hdiscover] at hrun
    · cases hrun
    · obtain rfl := Except.ok.inj (Prod.mk.inj hrun).1
      refine ⟨files, rfl, ?_, ?_⟩ <;> rw [Results.recordAll_eq]
      · exact Nat.zero_add _
      · exact List.Perm.refl _
  · rw [resultOn_parallel host directory hfast] at hrun
    rcases hdiscover : outcome (discover host config t directory) with e | files <;>
      rw [hdiscover] at hrun
    · cases hrun
    · dsimp only at hrun
      rw [flatten_assignments (activeWorkers_pos config host) files] at hrun
      obtain rfl := Except.ok.inj (Prod.mk.inj hrun).1
      refine ⟨files, rfl, ?_, ?_⟩ <;> rw [Results.recordAll_eq]
      · exact Nat.zero_add _
      · exact List.mergeSort_perm _ _

end Runs

/-- The collector agrees with the results of a batch that goes on after failures: it has as many
files as were processed and one error for each file that failed, whether in reading or in writing,
and for no other. This holds for every order of what was said, as long as nothing was dropped. What
is said in a file's name is said while the file is current, and no file is current afterwards. -/
theorem diagnostics_agree (host : Host) (config : Config) (directory : String) (t u : FileTree)
    (wf : t.WellFormed) (hfast : config.failFast = false) (s : Session)
    (hcollector : s.collector = some .empty) (hcontext : s.context = none) (r : Results)
    (hrun : resultOn (run host config directory) t = (.ok r, u)) (log : Log)
    (hlog : log.Perm (saidOn (run host config directory).run t)) :
    (∀ ctx part, s.replay (Log.within ctx part) = ((s.enter ctx).replay part).leave none) ∧
    (s.replay log).context = none ∧
    ∃ c, (s.replay log).collector = some c ∧
      (c.summary.droppedEvents = 0 → Diagnosed c r) := by
  obtain ⟨files, hdiscover, hprocessed, hfailures⟩ := results_of_run hfast hrun
  have found := discovered_of_discover wf hdiscover
  obtain ⟨out, err, hreplay⟩ := s.replay_eq hcontext log
  have ledger := Collector.ledger_after s.limits (s.acts log)
  rw [s.sinceClear_acts] at ledger
  refine ⟨?_, ?_, Collector.after s.limits (s.acts log), ?_, ?_⟩
  · intro ctx part
    rw [s.replay_within, hcontext]
  · rw [hreplay]
    exact hcontext
  · rw [hreplay, hcollector]
    rfl
  · intro hdropped
    rw [ledger.summary_eq] at hdropped
    have htells := tells_jobActs s host config directory t (jobs files)
    rw [← acts_saidOn_run s host directory hfast hdiscover] at htells
    exact (htells.perm (hlog.filterMap s.act?)).diagnosed ledger hdropped
      (found.nodup_keys host config t) hprocessed hfailures

/-- Three sources: one whose catalog cannot be written, one in order and one that is no text. -/
def faultySources : FileTree :=
  ((twoSources.put ["d", "c.c"] (.file ⟨#[0xff]⟩)).put ["output_files"] .directory).put
    ["output_files", "a.c"] (.file "".toUTF8)

private theorem wellFormed_faultySources : faultySources.WellFormed := by
  have hc : (twoSources.put (["d"] ++ ["c.c"]) (.file ⟨#[0xff]⟩)).WellFormed :=
    wellFormed_twoSources.put rfl (by constructor <;> decide) (by decide) (by nofun)
  have hout : ((twoSources.put ["d", "c.c"] (.file ⟨#[0xff]⟩)).put ([] ++ ["output_files"])
      .directory).WellFormed :=
    hc.put rfl (by constructor <;> decide) (by decide) fun _ => rfl
  change FileTree.WellFormed (FileTree.put _ (["output_files"] ++ ["a.c"]) _)
  exact hout.put rfl (by constructor <;> decide) (by decide) (by nofun)

private theorem discover_faultySources :
    outcome (discover {} { workers := 2 } faultySources "d") =
      .ok ["d/a.c", "d/b.c", "d/c.c"] := by
  have hdirectory : faultySources.isDirectory "d" = true := by decide +kernel
  have hsources : sources faultySources "d" true = ["d/a.c", "d/b.c", "d/c.c"] := by decide +kernel
  have hsorted : sortedSources faultySources "d" true = ["d/a.c", "d/b.c", "d/c.c"] := by
    rw [sortedSources, hsources, byPath_of_pairwise (by decide +kernel)]
  exact discover_all rfl (fun _ => rfl) hdirectory hsorted (List.cons_ne_nil _ _) (by decide)

theorem diagnostics_agree_faultySources :
    faultySources.WellFormed ∧ ({ workers := 2 } : Config).failFast = false ∧
    ∃ (s : Session) (r : Results) (u : FileTree) (c : Collector),
      s.collector = some .empty ∧ s.context = none ∧
      resultOn (run {} { workers := 2 } "d") faultySources = (.ok r, u) ∧
      (s.replay (saidOn (run {} { workers := 2 } "d").run faultySources)).collector = some c ∧
      c.summary = { totalFiles := 3, successfulFiles := 1, failedFiles := 2, totalErrors := 2 } ∧
      Diagnosed c r := by
  let s : Session := { limits := .development, collector := some .empty }
  obtain ⟨r, u, hrun⟩ : ∃ r u,
      resultOn (run {} { workers := 2 } "d") faultySources = (.ok r, u) := by
    rw [run, if_neg (by decide), resultOn_parallel {} "d" rfl, discover_faultySources]
    exact ⟨_, _, rfl⟩
  obtain ⟨-, -, c, hc, hagree⟩ := diagnostics_agree {} { workers := 2 } "d" faultySources u
    wellFormed_faultySources rfl s rfl rfl r hrun _ (List.Perm.refl _)
  have hsummary : (Collector.after .development (jobActs s {} { workers := 2 } "d" faultySources
      (jobs ["d/a.c", "d/b.c", "d/c.c"]))).summary =
      { totalFiles := 3, successfulFiles := 1, failedFiles := 2, totalErrors := 2 } := by
    decide +kernel
  have hcollector : c = Collector.after .development (jobActs s {} { workers := 2 } "d"
      faultySources (jobs ["d/a.c", "d/b.c", "d/c.c"])) := by
    obtain ⟨out, err, hreplay⟩ := s.replay_eq rfl
      (saidOn (run {} { workers := 2 } "d").run faultySources)
    rw [hreplay, acts_saidOn_run s {} "d" rfl discover_faultySources] at hc
    exact (Option.some.inj hc).symm
  rw [← hcollector] at hsummary
  refine ⟨wellFormed_faultySources, rfl, s, r, u, c, rfl, rfl, hrun, hc, hsummary, hagree ?_⟩
  rw [hsummary]

end CInventory.Batch
