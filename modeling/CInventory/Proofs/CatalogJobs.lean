import Mathlib
import CInventory.Proofs.Catalogers
import CInventory.Proofs.Discovery
import CInventory.Proofs.Writing

/-!
# One file of a batch

Cataloging a file reads it and delivers its catalog below the output directory. What is read does
not change while other catalogs are delivered: sources have other names than the files of a
catalog.
-/

namespace CInventory

open Diagnostic Output
open CInventory.Path (IsName steps pieces LastLeads)

/-! ## Reading in a tree that grows -/

namespace FileTree

theorem walk_place {t : FileTree} (wf : t.WellFormed) {place : Location} {node : Node}
    (h : t.at? place = some node) : t.walk [] place = .ok place := by
  induction place using List.reverseRecOn generalizing node with
  | nil => rfl
  | append_singleton front name ih =>
      have hfront := wf.parent h
      obtain ⟨hname, hsize⟩ := wf.isName h
      have hdir := isDirectoryAt_iff.mpr hfront
      have harrive : t.arrive [] front = .ok front := by
        simp [arrive, ih hfront, Except.bind, hdir]
      rw [walk_concat, harrive]
      simp [Except.bind, step, hdir, hname.not_idle, hname.not_up, Nat.not_lt.mpr hsize, h]

theorem pieces_locationText {place : Location} (hne : place ≠ [])
    (h : ∀ n ∈ place, IsName n) : pieces (locationText place) = "" :: place := by
  rw [locationText, Path.pieces_slash_append,
    Path.pieces_intercalate hne fun n hn => (h n hn).no_slash]

theorem resolve_locationText {t : FileTree} (wf : t.WellFormed) {place : Location} {node : Node}
    (hne : place ≠ []) (h : t.at? place = some node) :
    t.resolve (locationText place) =
      match pathFault? (locationText place) with
      | some fault => .error fault
      | none => .ok place := by
  have habs : Path.isAbsolute (locationText place) = true := Path.isAbsolute_iff.mpr ⟨_, rfl⟩
  have hpieces := pieces_locationText hne (wf.names h)
  rw [resolve]
  rcases pathFault? (locationText place) with _ | fault
  · have hroot : t.step [] "" = .ok [] := step_idle (isDirectoryAt_iff.mpr rfl) rfl
    simp [origin, habs, hpieces, walk_cons, hroot, Except.bind, walk_place wf h]
  · rfl

theorem node_locationText {t : FileTree} (wf : t.WellFormed) {place : Location} {node : Node}
    (hne : place ≠ []) (h : t.at? place = some node) :
    t.node (locationText place) =
      match pathFault? (locationText place) with
      | some fault => .error fault
      | none => .ok node := by
  rw [node_eq, resolve_locationText wf hne h]
  rcases pathFault? (locationText place) with _ | fault
  · simp [Except.bind, h]
  · rfl

end FileTree

structure SameFile (t u : FileTree) (path : String) (place : Location) (content : ByteArray) :
    Prop where
  ne_nil : place ≠ []
  resolve : t.resolve path = .ok place
  resolve' : u.resolve path = .ok place
  node : t.at? place = some (.file content)
  node' : u.at? place = some (.file content)

theorem SameFile.readBytes {t u : FileTree} (wf : t.WellFormed) (wf' : u.WellFormed)
    {path : String} {place : Location} {content : ByteArray} (h : SameFile t u path place content) :
    u.readBytes (FileTree.locationText place) = t.readBytes (FileTree.locationText place) := by
  rw [FileTree.readBytes, FileTree.readBytes, FileTree.node_locationText wf h.ne_nil h.node,
    FileTree.node_locationText wf' h.ne_nil h.node']

theorem SameFile.readText {t u : FileTree} (wf : t.WellFormed) (wf' : u.WellFormed)
    {path : String} {place : Location} {content : ByteArray} (h : SameFile t u path place content) :
    u.readText (FileTree.locationText place) = t.readText (FileTree.locationText place) := by
  rw [FileTree.readText, FileTree.readText, h.readBytes wf wf']

namespace SourceFile

theorem outcome_locate (host : Host) {t : FileTree} {path : String} {place : Location}
    {content : ByteArray} (hresolve : t.resolve path = .ok place)
    (hnode : t.at? place = some (.file content)) :
    outcome (locate host t path) =
      match t.resolve (FileTree.locationText place) with
      | .ok _ => .ok place
      | .error e => .error (.ioError s!"Failed to resolve path '{path}': {e.message}") := by
  have hne : path ≠ "" := by
    rintro rfl
    simp [FileTree.resolve, FileTree.pathFault?] at hresolve
  have hfile : t.isFile path = true := by
    simp [FileTree.isFile, FileTree.node_eq, hresolve, Except.bind, hnode]
  unfold locate
  simp only [hne, hresolve, hfile, if_true, if_false]
  cases t.resolve (FileTree.locationText place) <;> rfl

theorem locate_ok {host : Host} {t : FileTree} {path : String} {place : Location}
    (h : outcome (locate host t path) = .ok place) :
    t.resolve path = .ok place ∧ t.isFile path = true := by
  unfold locate at h
  by_cases hempty : path = ""
  · simp only [hempty, if_true] at h
    cases h
  rcases hresolve : t.resolve path with e | there <;>
    simp only [hempty, hresolve, if_false] at h
  · cases h
  · split at h
    · next hfile =>
        rcases hwhole : t.resolve (FileTree.locationText there) with e | _ <;>
          rw [hwhole] at h <;> cases h
        exact ⟨rfl, hfile⟩
    · cases h

def infoAt (place : Location) (content : ByteArray) : FileInfo :=
  let path := FileTree.locationText place
  { path, size := content.size, extension := (Path.extension? path).map Text.lower }

theorem outcome_inspect (host : Host) (t : FileTree) (place : Location) :
    outcome (inspect host t place) =
      match t.readBytes (FileTree.locationText place) with
      | .ok content => .ok (infoAt place content)
      | .error e => .error (.ioError
          s!"Failed to read metadata for '{FileTree.locationText place}': {e.message}") := by
  simp only [inspect]
  cases t.readBytes (FileTree.locationText place) <;> rfl

/-- What reading comes to, one part after the other. -/
theorem outcome_read (host : Host) (prefs : ReadPreferences) (t : FileTree) (path : String) :
    outcome (read host prefs t path) =
      (outcome (locate host t path)).bind fun place =>
      (outcome (inspect host t place)).bind fun info =>
      (outcome (accept host prefs info)).bind fun _ =>
      (outcome (readContent host t info.path)).bind fun text =>
        if Text.lineCount text.toList > host.limits.maxLineCount then
          .error (.tooManyLines (Text.lineCount text.toList) host.limits.maxLineCount)
        else .ok ⟨text, { info with lineCount := Text.lineCount text.toList }⟩ := by
  unfold read
  simp only [outcome_bind, say, outcome_lift, bind_ok]
  congr
  funext place
  congr
  funext info
  congr
  funext _
  congr
  funext text
  split <;> rfl

/-- Reading a file depends on the tree only through the file's content. -/
theorem outcome_read_eq (host : Host) (prefs : ReadPreferences) {t u : FileTree}
    (wf : t.WellFormed) (wf' : u.WellFormed) {path : String} {place : Location}
    {content : ByteArray} (h : SameFile t u path place content) :
    outcome (read host prefs u path) = outcome (read host prefs t path) := by
  have hcontent : readContent host u (FileTree.locationText place) =
      readContent host t (FileTree.locationText place) := by
    unfold readContent
    rw [h.readText wf wf']
  rw [outcome_read, outcome_read, outcome_locate host h.resolve h.node,
    outcome_locate host h.resolve' h.node', FileTree.resolve_locationText wf h.ne_nil h.node,
    FileTree.resolve_locationText wf' h.ne_nil h.node']
  rcases FileTree.pathFault? (FileTree.locationText place) with _ | fault
  swap
  · rfl
  simp only [bind_ok, outcome_inspect, h.readBytes wf wf']
  cases t.readBytes (FileTree.locationText place) with
  | error e => rfl
  | ok bytes =>
      rw [bind_ok, bind_ok]
      unfold infoAt
      rw [hcontent]

end SourceFile

namespace Catalog

/-- A file's text is cataloged as what its segments declare and count. -/
theorem ofText_eq (limits : Limits) (prefs : ScanPreferences) (info : FileInfo) (text : String) :
    ofText limits prefs info text =
      (ofOutcome (Scan.outcome limits prefs text) (some info),
        (Scan.outcome limits prefs text).events) := by
  rw [ofText]
  by_cases fit : PositionsFit text.toList
  · obtain ⟨last, hscan, ends⟩ := Scan.Cataloger.scan_ends { prefs } limits .empty fit
    rw [hscan]
    dsimp only
    rw [ends.inventory, ends.events]
    rfl
  · rw [Scan.Cataloger.scan_overflows { prefs } limits .empty fit]

theorem outcome_ofFile (host : Host) (prefs : Preferences) (t : FileTree) (path : String)
    (id : Nat) :
    outcome (ofFile host prefs t path id) =
      match outcome (SourceFile.read host prefs.reading t path) with
      | .error e => .error (.reading e)
      | .ok file => .ok (ofOutcome (Scan.outcome host.limits prefs.scanning file.text)
          (some file.info)) := by
  unfold ofFile
  simp only [ofText_eq]
  change (match outcome (SourceFile.read host prefs.reading t path) with
    | .error e => pure (.error (.reading e))
    | .ok file => _ : Logged (Except CatalogError Catalog)).value = _
  cases outcome (SourceFile.read host prefs.reading t path) <;> rfl

theorem resultOn_store {σ : Type} (host : Host) (path : String) (id : Nat) (c : Catalog)
    (d : Destination σ) (s : σ) :
    resultOn (store host path id c d) s =
      match resultOn (d.write c.inventory) s with
      | (.ok written, u) => (.ok ({ c with inventory := .empty }, written), u)
      | (.error e, u) => (.error (.output e c), u) := by
  unfold store
  rw [resultOn_mk, valueOn_bind, ← resultOn]
  rcases resultOn (d.write c.inventory) s with ⟨e | written, u⟩ <;> rfl

theorem resultOn_ofFileTo {σ : Type} (host : Host) (prefs : Preferences) (t : FileTree)
    (path : String) (id : Nat) (d : Destination σ) (s : σ) :
    resultOn (ofFileTo host prefs t path id d) s =
      match outcome (ofFile host prefs t path id) with
      | .error e => (.error e, s)
      | .ok c =>
        match resultOn (d.write c.inventory) s with
        | (.ok written, u) => (.ok ({ c with inventory := .empty }, written), u)
        | (.error e, u) => (.error (.output e c), u) := by
  unfold ofFileTo
  rw [resultOn_bind, resultOn_lift]
  cases outcome (ofFile host prefs t path id) with
  | error e => rfl
  | ok c => exact resultOn_store host path id c d s

end Catalog

namespace Batch

/-! ## Cataloging one file -/

def writerFor (config : Config) (directory path : String) : FileWriter :=
  { directory := outputDirectory config.preferences.output.directory directory path
    format := config.preferences.output.format
    source := some path }

theorem valueOn_catalogOne (host : Host) (config : Config) (directory : String) (job : Job)
    (t : FileTree) :
    valueOn (catalogOne host config directory job) t =
      match outcome (Catalog.ofFile host config.preferences t job.path job.id) with
      | .error e => (.error e, t)
      | .ok catalog =>
        if config.write then
          match resultOn ((writerFor config directory job.path).write host catalog.inventory) t with
          | (.ok written, u) =>
            (.ok ⟨job.path, { catalog with inventory := .empty }, some written⟩, u)
          | (.error e, u) => (.error (.output e catalog), u)
        else (.ok ⟨job.path, catalog, none⟩, t) := by
  unfold catalogOne
  rw [valueOn_bind, valueOn_get]
  by_cases hwrite : config.write = true
  · simp only [hwrite, if_true]
    rw [valueOn_bind, ← resultOn, Catalog.resultOn_ofFileTo]
    cases outcome (Catalog.ofFile host config.preferences t job.path job.id) with
    | error e => rfl
    | ok catalog =>
        rcases hwritten : resultOn ((writerFor config directory job.path).write host
          catalog.inventory) t with ⟨e | written, u⟩ <;> unfold writerFor at hwritten <;>
          simp only [FileWriter.destination, writerFor, hwritten] <;> rfl
  · simp only [hwrite, if_neg Bool.false_ne_true]
    rw [valueOn_bind, valueOn_lift]
    cases hcatalog : outcome (Catalog.ofFile host config.preferences t job.path job.id) <;>
      unfold outcome at hcatalog <;> rw [hcatalog] <;> rfl

/-! ## Where a catalog goes -/

structure LeadsBelow (base path : String) (names : List String) : Prop where
  steps_eq : steps path = steps base ++ names
  isAbsolute_eq : Path.isAbsolute path = Path.isAbsolute base
  lastLeads : LastLeads (pieces path)
  ne_empty : path ≠ ""

section Sources

variable {t u : FileTree} {directory path : String} {names : Location}

theorem IsSourceBelow.steps_eq (src : IsSourceBelow t directory path names) :
    steps path = steps directory ++ names := by
  rw [src.path_eq, Path.foldl_join directory src.isName]

/-- The catalog of a source goes to its own names below the output directory. -/
theorem IsSourceBelow.outputDirectory_eq (src : IsSourceBelow t directory path names)
    (hdirectory : directory ≠ "") (output : String) :
    outputDirectory output directory path = names.foldl Path.join output := by
  have hne : "/".intercalate names ≠ "" := by
    intro hempty
    have hjoin := Path.join_intercalate "" src.ne_nil src.isName
    rw [hempty] at hjoin
    exact Path.foldl_join_ne_empty src.ne_nil src.isName
      (hjoin.symm.trans (by simp [Path.join, Path.isAbsolute_empty]))
  rw [outputDirectory, src.path_eq,
    Path.stripPrefix?_foldl_join hdirectory src.ne_nil src.isName]
  dsimp only
  rw [if_neg hne, Path.join_intercalate output src.ne_nil src.isName]

theorem lastLeads_foldl_join (base : String) {names : List String} (hne : names ≠ [])
    (h : ∀ n ∈ names, IsName n) : LastLeads (pieces (names.foldl Path.join base)) := by
  obtain ⟨front, last, rfl⟩ := (List.eq_nil_or_concat' names).resolve_left hne
  have hname : IsName last := h last (by simp)
  rw [List.foldl_append]
  exact Path.lastLeads_pieces_join _ hname.not_absolute hname.lastLeads

theorem IsSourceBelow.leadsBelow (src : IsSourceBelow t directory path names)
    (hdirectory : directory ≠ "") (output : String) :
    LeadsBelow output (outputDirectory output directory path) names := by
  rw [src.outputDirectory_eq hdirectory]
  exact ⟨Path.foldl_join output src.isName, Path.isAbsolute_foldl_join output src.isName,
    lastLeads_foldl_join output src.ne_nil src.isName,
    Path.foldl_join_ne_empty src.ne_nil src.isName⟩

theorem not_mem_outputNames {name : String} (h : name ∈ FileWriter.outputNames) :
    (match Path.extensionOf? name with
      | some ext => Path.sourceExtensions.contains (Text.lower ext)
      | none => false) = false := by
  have hall : ∀ n ∈ FileWriter.outputNames, (match Path.extensionOf? n with
      | some ext => Path.sourceExtensions.contains (Text.lower ext)
      | none => false) = false := by decide
  exact hall name h

theorem IsSourceBelow.exists_last (src : IsSourceBelow t directory path names) :
    ∃ front last, names = front ++ [last] ∧ IsName last ∧ last ∉ FileWriter.outputNames := by
  obtain ⟨front, last, rfl⟩ := (List.eq_nil_or_concat' names).resolve_left src.ne_nil
  have hname : IsName last := src.isName last (by simp)
  refine ⟨front, last, rfl, hname, fun hmem => ?_⟩
  have hsteps := src.steps_eq
  rw [← List.append_assoc] at hsteps
  have hfile := Path.fileName?_of_steps hsteps hname.not_up
  have hsource := src.isSource
  rw [Path.isSource, Path.extension?, hfile] at hsource
  exact Bool.false_ne_true ((not_mem_outputNames hmem).symm.trans hsource)

theorem place_of_step {place there : Location} {s : String} (hs : IsName s)
    (h : t.step place s = .ok there) : there = place ++ [s] := by
  rw [FileTree.step] at h
  simp only [hs.not_idle, hs.not_up, if_false, Bool.false_eq_true] at h
  split at h
  · cases h
  · split at h
    · cases h
    · split at h
      · exact (Except.ok.inj h).symm
      · cases h

/-- A source is the same file in every tree that catalogs are added to. -/
theorem IsSourceBelow.sameFile (src : IsSourceBelow t directory path names) (wf : t.WellFormed)
    (grows : FileTree.Grows FileWriter.outputNames t u) :
    ∃ place content, SameFile t u path place content := by
  obtain ⟨front, last, hnames, hname, houtput⟩ := src.exists_last
  have hlast : LastLeads (pieces path) :=
    src.path_eq ▸ lastLeads_foldl_join directory src.ne_nil src.isName
  have hfile := src.isFile
  rw [FileTree.isFile, FileTree.node_eq] at hfile
  rcases hresolve : t.resolve path with e | place <;> rw [hresolve] at hfile
  · simp [Except.bind] at hfile
  rcases hnode : t.at? place with _ | (content | _) <;> simp [Except.bind, hnode] at hfile
  have hfault := FileTree.pathFault?_of_resolve hresolve
  -- The place ends in the last name, which no catalog file has.
  have hsteps := src.steps_eq
  rw [hnames, ← List.append_assoc] at hsteps
  have hwalk := hresolve
  rw [t.resolve_of_steps hfault hlast hsteps] at hwalk
  obtain ⟨above, hplace⟩ : ∃ above, place = above ++ [last] := by
    rcases harrive : t.arrive (t.origin path) (steps directory ++ front) with e | above <;>
      rw [harrive] at hwalk
    · cases hwalk
    · exact ⟨above, place_of_step hname hwalk⟩
  subst hplace
  refine ⟨above ++ [last], content, by simp, hresolve, ?_, hnode, grows.content hnode houtput⟩
  rw [FileTree.resolve_eq_walk t hfault hlast] at hresolve
  rw [FileTree.resolve_eq_walk u hfault hlast, FileTree.origin_congr grows.home rfl,
    FileTree.walk_of_grows grows wf (FileTree.at?_origin wf path) (by simp [hresolve]), hresolve]

theorem IsSourceBelow.outcome_ofFile_eq (src : IsSourceBelow t directory path names)
    (wf : t.WellFormed) (wf' : u.WellFormed)
    (grows : FileTree.Grows FileWriter.outputNames t u) (host : Host) (prefs : Preferences)
    (id : Nat) :
    outcome (Catalog.ofFile host prefs u path id) =
      outcome (Catalog.ofFile host prefs t path id) := by
  obtain ⟨place, content, same⟩ := src.sameFile wf grows
  rw [Catalog.outcome_ofFile, Catalog.outcome_ofFile, SourceFile.outcome_read_eq host _ wf wf' same]

end Sources

/-! ## What a file adds to the tree -/

/-- What the catalog of a file comes to: the steps to its directory and its files. A file that
cannot be read has none, nor has one whose directory cannot be named. -/
def consignment (host : Host) (config : Config) (directory : String) (t : FileTree) (job : Job) :
    Option (List String × List FileTree.Parcel) :=
  match outcome (Catalog.ofFile host config.preferences t job.path job.id) with
  | .error _ => none
  | .ok catalog =>
    let w := writerFor config directory job.path
    if config.write && (FileTree.pathFault? w.directory).isNone then
      some (steps w.directory, w.parcels host catalog.inventory)
    else none

def ship (place : Location) (c : Option (List String × List FileTree.Parcel)) (t : FileTree) :
    FileTree :=
  match c with
  | none => t
  | some (l, parcels) => (t.deliver place l parcels).1

/-- What comes of a file in a tree, when its catalog is known. -/
def verdict (host : Host) (config : Config) (directory : String) (place : Location)
    (catalog : Except CatalogError Catalog) (job : Job) (t : FileTree) :
    Except CatalogError Success :=
  match catalog with
  | .error e => .error e
  | .ok catalog =>
    let w := writerFor config directory job.path
    if config.write then
      match FileTree.pathFault? w.directory with
      | some fault => .error (.output (.directoryUnavailable w.directory fault.message) catalog)
      | none =>
        match (t.deliver place (steps w.directory) (w.parcels host catalog.inventory)).2 with
        | .ok () =>
          .ok ⟨job.path, { catalog with inventory := .empty },
            some (w.written host catalog.inventory)⟩
        | .error e =>
          .error (.output (w.failure (FileWriter.blockReason t w.directory) e) catalog)
    else .ok ⟨job.path, catalog, none⟩

/-- Cataloging a file ships its catalog. -/
theorem valueOn_catalogOne_eq {host : Host} {config : Config} {directory : String} {job : Job}
    {t : FileTree} (wf : t.WellFormed) {names : Location}
    (leads : LeadsBelow config.preferences.output.directory
      (writerFor config directory job.path).directory names) :
    valueOn (catalogOne host config directory job) t =
      (verdict host config directory (t.origin config.preferences.output.directory)
          (outcome (Catalog.ofFile host config.preferences t job.path job.id)) job t,
        ship (t.origin config.preferences.output.directory)
          (consignment host config directory t job) t) := by
  rw [valueOn_catalogOne]
  unfold verdict consignment
  have horigin : t.origin (writerFor config directory job.path).directory =
      t.origin config.preferences.output.directory :=
    FileTree.origin_congr rfl leads.isAbsolute_eq
  cases outcome (Catalog.ofFile host config.preferences t job.path job.id) with
  | error e => rfl
  | ok catalog =>
      by_cases hwrite : config.write = true
      · rcases hfault : FileTree.pathFault? (writerFor config directory job.path).directory with
          _ | fault
        · simp only [hwrite, hfault, if_true, Option.isNone_none, Bool.and_self]
          rw [FileWriter.write_result host catalog.inventory wf hfault leads.lastLeads, horigin]
          rcases hdeliver : t.deliver (t.origin config.preferences.output.directory)
            (steps (writerFor config directory job.path).directory)
            ((writerFor config directory job.path).parcels host catalog.inventory) with
            ⟨u, e | ⟨⟩⟩ <;> simp only [FileWriter.report, ship, hdeliver]
        · simp only [hwrite, hfault, if_true]
          rw [FileWriter.write_of_fault host catalog.inventory leads.ne_empty hfault]
          simp [ship]
      · simp [hwrite, ship]

end Batch

end CInventory
