import Mathlib
import CInventory.Proofs.CatalogJobs

/-!
# What logged work says

The log of work is put together from the logs of its parts. Reading a file and looking for files
post one error when they fail and none when they succeed. Writing posts nothing that belongs to a
file; the error of a file whose catalog could not be written is posted afterwards.
-/

namespace CInventory.Diagnostic

variable {ε σ α β : Type}

/-! ## Entries -/

def Entry.isError : Entry → Bool
  | .visit _ => false
  | .post _ e => e.isError
  | .print _ => false

/-- An entry that belongs to no file. -/
def Entry.isLoose : Entry → Bool
  | .visit _ => false
  | .post ctx _ => ctx.isNone
  | .print _ => true

def Log.Loose (log : Log) : Prop := ∀ entry ∈ log, entry.isLoose

theorem Log.Loose.nil : Log.Loose [] := by nofun

theorem Log.Loose.append {log log' : Log} (h : Loose log) (h' : Loose log') :
    Loose (log ++ log') :=
  List.forall_mem_append.mpr ⟨h, h'⟩

theorem Log.loose_post (e : Event) : Loose (Log.post e) := by
  intro entry hentry
  rw [List.mem_singleton.mp hentry]
  rfl

theorem Log.loose_ofEvents (events : List Event) : Loose (Log.ofEvents events) := by
  intro entry hentry
  obtain ⟨e, -, rfl⟩ := List.mem_map.mp hentry
  rfl

theorem Log.countP_post (e : Event) :
    (Log.post e).countP Entry.isError = if e.isError then 1 else 0 :=
  List.countP_singleton

theorem Log.countP_ofEvents (events : List Event) :
    (Log.ofEvents events).countP Entry.isError = events.countP Event.isError :=
  List.countP_map

/-! ## Logs of work -/

def said (x : ExceptT ε Logged α) : Log := x.run.log

def saidOn (x : StateT σ Logged α) (s : σ) : Log := (x.run s).log

theorem said_bind (x : ExceptT ε Logged α) (f : α → ExceptT ε Logged β) :
    said (x >>= f) =
      said x ++ match outcome x with
        | .ok a => said (f a)
        | .error _ => [] := by
  change said x ++ (ExceptT.bindCont f (outcome x) : Logged (Except ε β)).log = _
  rcases outcome x with e | a <;> rfl

theorem saidOn_bind (x : StateT σ Logged α) (f : α → StateT σ Logged β) (s : σ) :
    saidOn (x >>= f) s = saidOn x s ++ saidOn (f (valueOn x s).1) (valueOn x s).2 := rfl

theorem saidOn_lift (x : Logged α) (s : σ) :
    saidOn (StateT.lift x : StateT σ Logged α) s = x.log :=
  List.append_nil _

/-- Work that says nothing about a file. -/
def SaidLoose (x : ExceptT ε Logged α) : Prop := (said x).Loose

namespace SaidLoose

theorem pure (a : α) : SaidLoose (pure a : ExceptT ε Logged α) := Log.Loose.nil

theorem throw (e : ε) : SaidLoose (throw e : ExceptT ε Logged α) := Log.Loose.nil

theorem say (e : Event) :
    SaidLoose (ExceptT.lift (Logged.say (Log.post e)) : ExceptT ε Logged Unit) :=
  Log.loose_post e

theorem bind {x : ExceptT ε Logged α} {f : α → ExceptT ε Logged β} (hx : SaidLoose x)
    (hf : ∀ a, SaidLoose (f a)) : SaidLoose (x >>= f) := by
  rw [SaidLoose, said_bind]
  cases outcome x with
  | error e => exact Log.Loose.append hx Log.Loose.nil
  | ok a => exact Log.Loose.append hx (hf a)

theorem check {c : Prop} [Decidable c] {x : ExceptT ε Logged Unit}
    {f : Unit → ExceptT ε Logged α} (hx : SaidLoose x) (hf : ∀ a, SaidLoose (f a)) :
    SaidLoose (if c then x >>= f else f ()) := by
  split
  · exact hx.bind hf
  · exact hf ()

theorem forM {f : α → ExceptT ε Logged PUnit} (hf : ∀ a, SaidLoose (f a)) (l : List α) :
    SaidLoose (l.forM f) := by
  induction l with
  | nil => exact pure _
  | cons a l ih => exact (hf a).bind fun _ => ih

end SaidLoose

/-- Work says that it fails, with one error that belongs to no file yet. -/
structure Reports (x : ExceptT ε Logged α) : Prop where
  loose : SaidLoose x
  countP_eq : (said x).countP Entry.isError = if (outcome x).isOk then 0 else 1

namespace Reports

theorem pure (a : α) : Reports (pure a : ExceptT ε Logged α) := ⟨Log.Loose.nil, rfl⟩

theorem bind {x : ExceptT ε Logged α} {f : α → ExceptT ε Logged β} (hx : Reports x)
    (hf : ∀ a, Reports (f a)) : Reports (x >>= f) := by
  refine ⟨hx.loose.bind fun a => (hf a).loose, ?_⟩
  · rw [said_bind, outcome_bind, List.countP_append, hx.countP_eq]
    cases outcome x with
    | error e => rfl
    | ok a =>
      rw [(hf a).countP_eq]
      exact Nat.zero_add _

theorem check {c : Prop} [Decidable c] {x : ExceptT ε Logged Unit}
    {f : Unit → ExceptT ε Logged α} (hx : Reports x) (hf : ∀ a, Reports (f a)) :
    Reports (if c then x >>= f else f ()) := by
  split
  · exact hx.bind hf
  · exact hf ()

theorem say {e : Event} (h : e.isError = false) :
    Reports (ExceptT.lift (Logged.say (Log.post e)) : ExceptT ε Logged Unit) where
  loose := Log.loose_post e
  countP_eq := by
    show (Log.post e).countP Entry.isError = 0
    rw [Log.countP_post, h]
    rfl

theorem refuse {e : Event} (h : e.isError = true) (error : ε) :
    Reports (do ExceptT.lift (Logged.say (Log.post e)); throw error : ExceptT ε Logged α) where
  loose := Log.loose_post e
  countP_eq := by
    show (Log.post e).countP Entry.isError = 1
    rw [Log.countP_post, h]
    rfl

end Reports

def SaysLoose (x : ExceptT ε (StateT σ Logged) α) : Prop := ∀ s, (saidOn x.run s).Loose

namespace SaysLoose

theorem pure (a : α) : SaysLoose (pure a : ExceptT ε (StateT σ Logged) α) := fun _ => Log.Loose.nil

theorem throw (e : ε) : SaysLoose (throw e : ExceptT ε (StateT σ Logged) α) :=
  fun _ => Log.Loose.nil

theorem set (s : σ) : SaysLoose (set s : ExceptT ε (StateT σ Logged) PUnit) :=
  fun _ => Log.Loose.nil

theorem bind {x : ExceptT ε (StateT σ Logged) α} {f : α → ExceptT ε (StateT σ Logged) β}
    (hx : SaysLoose x) (hf : ∀ a, SaysLoose (f a)) : SaysLoose (x >>= f) := by
  intro s
  change Log.Loose (saidOn x.run s ++ saidOn (ExceptT.bindCont f (resultOn x s).1) (resultOn x s).2)
  rcases resultOn x s with ⟨e | a, u⟩
  · exact (hx s).append Log.Loose.nil
  · exact (hx s).append (hf a u)

theorem get : SaysLoose (get : ExceptT ε (StateT σ Logged) σ) := fun _ => Log.Loose.nil

theorem foldlM {f : β → α → ExceptT ε (StateT σ Logged) β} (h : ∀ b a, SaysLoose (f b a))
    (init : β) (l : List α) : SaysLoose (l.foldlM f init) := by
  induction l generalizing init with
  | nil => exact pure init
  | cons a l ih =>
    rw [List.foldlM_cons]
    exact (h init a).bind ih

end SaysLoose

end CInventory.Diagnostic

namespace CInventory

open Diagnostic Output

/-! ## Reading -/

namespace SourceFile

variable (host : Host)

theorem reports_refuse {α : Type} (e : ReadError) (message : String)
    (context : List (String × String)) :
    Reports (refuse host e message context : Reading α) :=
  Reports.refuse rfl e

theorem reports_locate (t : FileTree) (path : String) : Reports (locate host t path) := by
  unfold locate
  refine Reports.check (reports_refuse host _ _ _) fun _ => ?_
  split
  · exact reports_refuse host _ _ _
  · split
    · split
      · exact Reports.pure _
      · exact reports_refuse host _ _ _
    · exact reports_refuse host _ _ _

theorem reports_inspect (t : FileTree) (place : Location) : Reports (inspect host t place) := by
  unfold inspect
  dsimp only
  split
  · exact reports_refuse host _ _ _
  · exact (Reports.say rfl).bind fun _ => Reports.pure _

theorem reports_accept (prefs : ReadPreferences) (info : FileInfo) :
    Reports (accept host prefs info) := by
  unfold accept
  refine Reports.check (reports_refuse host _ _ _) fun _ => ?_
  split
  · exact reports_refuse host _ _ _
  · exact Reports.pure _

theorem reports_readContent (t : FileTree) (path : String) : Reports (readContent host t path) := by
  unfold readContent
  split
  · exact Reports.pure _
  · exact reports_refuse host _ _ _

theorem reports_read (prefs : ReadPreferences) (t : FileTree) (path : String) :
    Reports (read host prefs t path) := by
  unfold read
  refine (Reports.say rfl).bind fun _ => ?_
  refine (reports_locate host t path).bind fun place => ?_
  refine (reports_inspect host t place).bind fun info => ?_
  refine (reports_accept host prefs info).bind fun _ => ?_
  refine (reports_readContent host t info.path).bind fun text => ?_
  refine Reports.check (reports_refuse host _ _ _) fun _ => ?_
  refine (Reports.say ?_).bind fun _ => Reports.pure _
  unfold readEvent
  split <;> rfl

end SourceFile

/-! ## Scanning -/

namespace Scan

private theorem not_isError_incompleteEvent (limits : Limits) (prefs : ScanPreferences)
    (warned : Nat) (found : Incomplete) (span : Span) :
    (incompleteEvent limits prefs warned found span).isError = false := by
  unfold incompleteEvent
  split
  · dsimp only
    split <;> rfl
  · rfl

theorem countP_isError_segmentEvents (limits : Limits) (prefs : ScanPreferences)
    (done : Array Event) (warned : Nat) (placed : List Placed) :
    (segmentEvents limits prefs done warned placed).toList.countP Event.isError =
      done.toList.countP Event.isError := by
  induction placed generalizing done warned with
  | nil => rfl
  | cons p placed ih =>
    unfold segmentEvents
    split
    · rw [ih, Array.toList_push, List.countP_append, List.countP_singleton]
      rfl
    · rw [ih, Array.toList_push, List.countP_append, List.countP_singleton,
        not_isError_incompleteEvent]
      rfl
    · exact ih done warned

/-- A scan warns, but has no errors. -/
theorem countP_isError_outcome (limits : Limits) (prefs : ScanPreferences) (source : String) :
    (outcome limits prefs source).events.countP Event.isError = 0 := by
  have hclosing : ∀ m, (closingEvents limits m).countP Event.isError = 0 := by
    intro m
    unfold closingEvents
    split <;> rfl
  rw [outcome, report, List.countP_append, countP_isError_segmentEvents, hclosing]
  rfl

end Scan

/-! ## Writing -/

namespace Output

theorem saysLoose_say {σ : Type} (e : Event) : SaysLoose (say e : Writing σ Unit) :=
  fun _ => Log.loose_post e

namespace FileWriter

variable (w : FileWriter) (host : Host)

private theorem saysLoose_unavailable (reason : String) :
    SaysLoose (ensureDirectory.unavailable w host reason) :=
  (saysLoose_say _).bind fun _ => SaysLoose.throw _

theorem saysLoose_ensureDirectory : SaysLoose (w.ensureDirectory host) := by
  unfold ensureDirectory
  refine SaysLoose.get.bind fun tree => ?_
  split
  · exact saysLoose_unavailable w host _
  · refine (SaysLoose.set _).bind fun _ => ?_
    split
    · exact SaysLoose.pure _
    · exact saysLoose_unavailable w host _

theorem saysLoose_writeFile (path content : String) : SaysLoose (writeFile host path content) := by
  unfold writeFile
  refine SaysLoose.get.bind fun tree => ?_
  split
  · exact (SaysLoose.set _).bind fun _ => SaysLoose.pure _
  · exact (saysLoose_say _).bind fun _ => SaysLoose.throw _

theorem saysLoose_write (inv : Inventory) : SaysLoose (w.write host inv) := by
  unfold write
  refine (saysLoose_ensureDirectory w host).bind fun _ => ?_
  refine (SaysLoose.foldlM (fun done k => ?_) _ _).bind fun done => ?_
  · exact (saysLoose_writeFile host _ _).bind fun _ => SaysLoose.pure _
  · cases w.format with
    | text => exact (saysLoose_say _).bind fun _ => SaysLoose.pure _
    | json =>
      refine SaysLoose.bind ?_ fun done => (saysLoose_say _).bind fun _ => SaysLoose.pure _
      exact (saysLoose_writeFile host _ _).bind fun _ => SaysLoose.pure _

end FileWriter

end Output

/-! ## Looking for files -/

namespace Batch

variable (host : Host)

theorem saidLoose_refuse {α : Type} (e : Error) (message : String)
    (context : List (String × String)) :
    SaidLoose (refuse host e message context : Discovery α) :=
  (SaidLoose.say _).bind fun _ => SaidLoose.throw e

theorem saidLoose_checkListing (path : String) : SaidLoose (checkListing host path) := by
  unfold checkListing
  split
  · exact SaidLoose.pure _
  · split
    · exact saidLoose_refuse host _ _ _
    · exact SaidLoose.throw _

theorem saidLoose_discover (config : Config) (t : FileTree) (directory : String) :
    SaidLoose (discover host config t directory) := by
  unfold discover
  refine (SaidLoose.say _).bind fun _ => ?_
  refine SaidLoose.check (saidLoose_refuse host _ _ _) fun _ => ?_
  refine (SaidLoose.forM (saidLoose_checkListing host) _).bind fun _ => ?_
  refine SaidLoose.check (saidLoose_refuse host _ _ _) fun _ => ?_
  refine SaidLoose.check (saidLoose_refuse host _ _ _) fun _ => ?_
  have hkept : ∀ kept : List String, SaidLoose (do
      say ((Event.success host.limits Code.discoveryComplete
        "File discovery completed").withContext [
          ("files_found", toString kept.length), ("directory", directory)])
      return kept : Discovery (List String)) :=
    fun _ => (SaidLoose.say _).bind fun _ => SaidLoose.pure _
  cases config.maxFiles with
  | none => exact hkept _
  | some limit =>
    dsimp only
    split
    · exact (SaidLoose.say _).bind fun _ => hkept _
    · exact hkept _

end Batch

/-! ## Work on one file -/

namespace Catalog

/-- Reading and scanning a file is told in the file's name, with one error if it fails. -/
theorem said_ofFile (host : Host) (prefs : Preferences) (t : FileTree) (path : String) (id : Nat) :
    ∃ log, said (ofFile host prefs t path id) = Log.within ⟨path, id⟩ log ∧ log.Loose ∧
      log.countP Entry.isError = if (outcome (ofFile host prefs t path id)).isOk then 0 else 1 := by
  obtain ⟨hloose, hcount⟩ := SourceFile.reports_read host prefs.reading t path
  unfold SaidLoose at hloose
  unfold said at hloose hcount ⊢
  unfold outcome at hcount ⊢
  unfold ofFile
  simp only [ofText_eq]
  generalize (SourceFile.read host prefs.reading t path).run = reading at hloose hcount ⊢
  obtain ⟨value, log⟩ := reading
  cases value with
  | error e =>
    refine ⟨Log.post _ ++ (log ++ []), rfl, ?_, ?_⟩
    · exact (Log.loose_post _).append (hloose.append Log.Loose.nil)
    · rw [List.append_nil, List.countP_append, hcount]
      rfl
  | ok file =>
    refine ⟨Log.post _ ++ (log ++ (Log.post _ ++ (Log.ofEvents
      (Scan.outcome host.limits prefs.scanning file.text).events ++ (Log.post _ ++ [])))), rfl,
      ?_, ?_⟩
    · exact (Log.loose_post _).append (hloose.append ((Log.loose_post _).append
        ((Log.loose_ofEvents _).append ((Log.loose_post _).append Log.Loose.nil))))
    · simp only [List.countP_append, Log.countP_ofEvents, Scan.countP_isError_outcome, hcount]
      rfl

section Store

variable {σ : Type} (host : Host) (path : String) (id : Nat) {c : Catalog} {d : Destination σ}
  {s u : σ}

theorem saidOn_store_ok {written : Written}
    (h : resultOn (d.write c.inventory) s = (.ok written, u)) :
    saidOn (store host path id c d).run s = saidOn (d.write c.inventory).run s := by
  unfold store
  change saidOn ((d.write c.inventory).run >>= _) s = _
  rw [saidOn_bind, ← resultOn, h]
  exact List.append_nil _

/-- The error of a catalog that could not be written is told in the file's name. -/
theorem saidOn_store_error {e : WriteError}
    (h : resultOn (d.write c.inventory) s = (.error e, u)) :
    saidOn (store host path id c d).run s =
      saidOn (d.write c.inventory).run s ++ Log.within ⟨path, id⟩ (Log.post
        ((Event.error host.limits e.code "Catalog could not be written").withContext [
          ("destination", d.shown), ("records", toString c.total)])) := by
  unfold store
  change saidOn ((d.write c.inventory).run >>= _) s = _
  rw [saidOn_bind, ← resultOn, h]
  rfl

theorem saidOn_ofFileTo_error {prefs : Preferences} {t : FileTree} {e : CatalogError}
    (h : outcome (ofFile host prefs t path id) = .error e) :
    saidOn (ofFileTo host prefs t path id d).run s = said (ofFile host prefs t path id) := by
  unfold ofFileTo
  change saidOn (StateT.lift (ofFile host prefs t path id).run >>= ExceptT.bindCont _) s = _
  rw [saidOn_bind, saidOn_lift, valueOn_lift, ← outcome, h]
  exact List.append_nil _

theorem saidOn_ofFileTo_ok {prefs : Preferences} {t : FileTree}
    (h : outcome (ofFile host prefs t path id) = .ok c) :
    saidOn (ofFileTo host prefs t path id d).run s =
      said (ofFile host prefs t path id) ++ saidOn (store host path id c d).run s := by
  unfold ofFileTo
  change saidOn (StateT.lift (ofFile host prefs t path id).run >>= ExceptT.bindCont _) s = _
  rw [saidOn_bind, saidOn_lift, valueOn_lift, ← outcome, h]
  rfl

end Store

end Catalog

namespace Batch

theorem saidOn_catalogOne (host : Host) (config : Config) (directory : String) (job : Job)
    (t : FileTree) :
    saidOn (catalogOne host config directory job) t =
      if config.write then
        saidOn (Catalog.ofFileTo host config.preferences t job.path job.id
          ((writerFor config directory job.path).destination host)).run t
      else said (Catalog.ofFile host config.preferences t job.path job.id) := by
  unfold catalogOne
  rw [saidOn_bind, valueOn_get]
  split
  · rw [saidOn_bind]
    exact List.append_nil _
  · rw [saidOn_bind, saidOn_lift]
    exact List.append_nil _

end Batch

end CInventory
