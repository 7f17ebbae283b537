import Mathlib
import CInventory.Output.Destination
import CInventory.Proofs.Delivery
import CInventory.Proofs.Detours
import CInventory.Proofs.Values

/-!
# Writing as delivery

A file writer makes its directory and writes one file for each kind, and the manifest if it is
asked for, one after the other (`write_run`). That is a delivery to its directory: the tree it
leaves and whether it succeeds are those of the delivery. Only the reason for a directory that
cannot be had needs more: it is the reason of the walk, if nothing was missing on the way.
-/

namespace CInventory.FileTree

open CInventory.Path (IsName steps)

/-! ## Files one after the other -/

private theorem write_of_lastStep {t : FileTree} {path last : String} {place : Location}
    {content : ByteArray} (h : t.lastStep path = .ok (place, last))
    (hslash : path.endsWith "/" = false) (hname : IsName last)
    (hsize : last.utf8ByteSize ≤ maxNameBytes) :
    t.write path content =
      match t.at? (place ++ [last]) with
      | some .directory => .error .isDirectory
      | _ => .ok (t.put (place ++ [last]) (.file content)) := by
  have hdots : (last = "." || last = "..") = false := by
    have hidle := hname.not_idle
    simp_all [Path.isIdle, hname.not_up]
  have hshort : ¬ last.utf8ByteSize > maxNameBytes := Nat.not_lt.mpr hsize
  simp only [write, h, bind, Except.bind, hdots, hshort, hslash, if_false,
    Bool.false_eq_true]
  rcases t.at? (place ++ [last]) with _ | (c | _) <;> rfl

/-- Writing a file below a directory that the way leads to puts it there. -/
theorem write_join {t : FileTree} {directory name : String} {place : Location}
    (harrive : t.arrive (t.origin directory) (steps directory) = .ok place) (hname : IsName name)
    (hsize : name.utf8ByteSize ≤ maxNameBytes) (content : ByteArray) :
    t.write (Path.join directory name) content =
      t.putParcel place ⟨Path.join directory name, name, content⟩ := by
  have habs := hname.not_absolute
  have hsteps : steps (Path.join directory name) = steps directory ++ [name] := by
    rw [Path.steps_join habs, hname.steps_eq]
  have hlast := Path.lastLeads_pieces_join directory habs hname.lastLeads
  have horigin : t.origin (Path.join directory name) = t.origin directory :=
    origin_congr rfl (Path.isAbsolute_join habs)
  rw [putParcel]
  rcases hfault : pathFault? (Path.join directory name) with _ | fault
  · have hstart := t.lastStep_of_steps hfault hlast hsteps
    rw [horigin, harrive] at hstart
    exact write_of_lastStep hstart (Path.not_endsWith_slash hlast) hname hsize
  · rw [write, lastStep, hfault]
    rfl

/-- Write files one after the other, up to the first that cannot be written. -/
def writeParcels (t : FileTree) : List Parcel → FileTree × Except DeliveryError Unit
  | [] => (t, .ok ())
  | parcel :: rest =>
    match t.write parcel.path parcel.content with
    | .ok u => u.writeParcels rest
    | .error e => (t, .error (.unwritten parcel.path e))

theorem writeParcels_append (t : FileTree) (front back : List Parcel) :
    t.writeParcels (front ++ back) =
      match t.writeParcels front with
      | (u, .ok ()) => u.writeParcels back
      | (u, .error e) => (u, .error e) := by
  induction front generalizing t with
  | nil => rfl
  | cons parcel front ih =>
      rw [List.cons_append, writeParcels, writeParcels]
      rcases t.write parcel.path parcel.content with e | u
      · rfl
      · exact ih u

/-- When a file cannot be written, those in front of it have been. -/
theorem writeParcels_error {t u : FileTree} {parcels : List Parcel} {e : DeliveryError}
    (h : t.writeParcels parcels = (u, .error e)) :
    ∃ front failed back fault, parcels = front ++ failed :: back ∧
      e = .unwritten failed.path fault ∧ t.writeParcels front = (u, .ok ()) := by
  induction parcels generalizing t with
  | nil => cases h
  | cons parcel parcels ih =>
      rw [writeParcels] at h
      rcases hwrite : t.write parcel.path parcel.content with fault | v <;> rw [hwrite] at h
      · cases h
        exact ⟨[], parcel, parcels, fault, rfl, rfl, rfl⟩
      · obtain ⟨front, failed, back, fault, rfl, rfl, hfront⟩ := ih h
        refine ⟨parcel :: front, failed, back, fault, rfl, rfl, ?_⟩
        rw [writeParcels, hwrite]
        exact hfront

/-- Files for one directory. -/
def BoundFor (directory : String) (parcels : List Parcel) : Prop :=
  ∀ parcel ∈ parcels, parcel.path = Path.join directory parcel.name ∧ IsName parcel.name ∧
    parcel.name.utf8ByteSize ≤ maxNameBytes

/-- Files written below a directory are put there, and the way there stays free. -/
theorem writeParcels_in_place {t : FileTree} {directory : String} {place : Location}
    {parcels : List Parcel} (bound : BoundFor directory parcels)
    (harrive : t.arrive (t.origin directory) (steps directory) = .ok place) :
    t.writeParcels parcels = t.putParcels place parcels ∧
      (t.putParcels place parcels).1.arrive ((t.putParcels place parcels).1.origin directory)
        (steps directory) = .ok place := by
  induction parcels generalizing t with
  | nil => exact ⟨rfl, harrive⟩
  | cons parcel parcels ih =>
      obtain ⟨hpath, hname, hsize⟩ := bound parcel List.mem_cons_self
      have hwrite : t.write parcel.path parcel.content = t.putParcel place parcel := by
        rw [hpath, write_join harrive hname hsize, ← hpath]
      rw [writeParcels, putParcels, hwrite]
      rcases hput : t.putParcel place parcel with e | v
      · exact ⟨rfl, harrive⟩
      · obtain ⟨hnode, rfl⟩ := putParcel_cases hput
        have grows := Grows.put_file parcel.content (List.mem_singleton_self parcel.name) hnode
        exact ih (fun other hother => bound other (List.mem_cons_of_mem _ hother))
          (arrive_ok_of_grows grows harrive)

end CInventory.FileTree

namespace CInventory.Output

open Diagnostic
open CInventory.Path (IsName steps pieces LastLeads)
open CInventory.FileTree (Parcel DeliveryError)

namespace FileWriter

/-! ## The directory -/

def blockReason (t : FileTree) (path : String) : String :=
  match t.resolve path with
  | .ok _ => "exists and is not a directory"
  | .error .notFound =>
    match (t.make (t.origin path) (steps path)).2 with
    | .ok _ => ""
    | .error e => e.message
  | .error e => e.message

theorem ensureDirectory_eq (w : FileWriter) (host : Host) (t : FileTree) :
    resultOn (w.ensureDirectory host) t =
      if t.hasPath w.directory && !t.isDirectory w.directory then
        (.error (.directoryUnavailable w.directory "exists and is not a directory"), t)
      else
        match t.createDirectories w.directory with
        | (u, .ok ()) => (.ok (), u)
        | (u, .error e) => (.error (.directoryUnavailable w.directory e.message), u) := by
  rw [ensureDirectory, resultOn_get_bind]
  split
  · rfl
  · rcases t.createDirectories w.directory with ⟨u, e | ⟨⟩⟩ <;> rfl

theorem ensureDirectory_of_missing {w : FileWriter} (host : Host) {t : FileTree} {e : FileError}
    (h : t.resolve w.directory = .error e) :
    resultOn (w.ensureDirectory host) t =
      match t.createDirectories w.directory with
      | (u, .ok ()) => (.ok (), u)
      | (u, .error e) => (.error (.directoryUnavailable w.directory e.message), u) := by
  rw [ensureDirectory_eq, FileTree.hasPath_eq, h]
  rfl

/-- What stands at the end of a way: a directory is as good as a made one. -/
theorem ensureDirectory_of_found {w : FileWriter} (host : Host) {t : FileTree} {there : Location}
    {node : Node} (hresolve : t.resolve w.directory = .ok there)
    (hnode : t.at? there = some node) :
    resultOn (w.ensureDirectory host) t =
      match node with
      | .file _ => (.error (.directoryUnavailable w.directory "exists and is not a directory"), t)
      | .directory =>
        match t.createDirectories w.directory with
        | (u, .ok ()) => (.ok (), u)
        | (u, .error e) => (.error (.directoryUnavailable w.directory e.message), u) := by
  rw [ensureDirectory_eq, FileTree.hasPath_eq, FileTree.isDirectory_eq, hresolve]
  rcases node with c | _ <;> simp [hnode, FileTree.isDirectoryAt]

theorem ensureDirectory_result {w : FileWriter} (host : Host) {t : FileTree}
    (wf : t.WellFormed) (hfault : FileTree.pathFault? w.directory = none)
    (hlast : LastLeads (pieces w.directory)) :
    resultOn (w.ensureDirectory host) t =
      match t.make (t.origin w.directory) (steps w.directory) with
      | (u, .ok _) => (.ok (), u)
      | (u, .error _) =>
        (.error (.directoryUnavailable w.directory (blockReason t w.directory)), u) := by
  obtain ⟨front, last, -, -, hsteps⟩ := FileTree.steps_concat hlast
  generalize front.filter (!Path.isIdle ·) = front at hsteps
  have hleads : ∀ s ∈ front ++ [last], s = ".." ∨ IsName s := fun s hs =>
    Path.isName_of_mem_steps (hsteps ▸ hs)
  have hfront : ∀ s ∈ front, s = ".." ∨ IsName s := fun s hs =>
    hleads s (List.mem_append_left _ hs)
  have horigin := FileTree.at?_origin wf w.directory
  have hcreate := FileTree.createDirectories_eq wf hfault hlast
  have hresolve := t.resolve_of_steps hfault hlast hsteps
  rw [hsteps, FileTree.chainOutcome_concat] at hcreate
  rw [hsteps]
  rcases harrive : t.arrive (t.origin w.directory) front with e | place <;>
    rw [harrive] at hresolve hcreate
  · -- The walk fails in front of the last step.
    change t.resolve w.directory = .error e at hresolve
    rw [ensureDirectory_of_missing host hresolve, hcreate, blockReason, hresolve, hsteps]
    by_cases he : e = .notFound
    · subst he
      rcases t.make (t.origin w.directory) (front ++ [last]) with ⟨u, e | there⟩ <;> rfl
    · obtain ⟨e', hmake⟩ := FileTree.make_of_arrive_error horigin hfront wf he harrive
      rw [FileTree.make_append_of_error hmake]
      cases e <;> first | exact absurd rfl he | rfl
  · have hplace := FileTree.directory_of_arrive harrive
    have hmake := FileTree.make_append_of_ok
      (FileTree.make_of_arrive horigin hfront wf harrive) [last]
    rw [FileTree.make_singleton] at hmake
    rw [hmake] at hcreate ⊢
    change t.resolve w.directory = t.step place last at hresolve
    have hstep := FileTree.step_cases hplace (hleads last (by simp))
    rcases hstep with ⟨-, hstep, hmade⟩ | ⟨-, -, hstep, hmade⟩ | ⟨-, -,
      ⟨hnode, hstep, hmade⟩ | ⟨hnode, hstep, hmade⟩ | ⟨c, hnode, hstep, hmade⟩⟩ <;>
      rw [hstep] at hresolve <;> rw [hmade] at hcreate ⊢
    · rw [ensureDirectory_of_found host hresolve (wf.dropLast hplace), hcreate]
      rfl
    · rw [ensureDirectory_of_missing host hresolve, hcreate, blockReason, hresolve]
      rfl
    · rw [ensureDirectory_of_missing host hresolve, hcreate]
      rfl
    · rw [ensureDirectory_of_found host hresolve hnode, hcreate]
      rfl
    · rw [ensureDirectory_of_found host hresolve hnode, blockReason, hresolve]

/-- A path with a fault of its own gives that as the reason, and nothing is made. -/
theorem ensureDirectory_of_fault {w : FileWriter} (host : Host) {t : FileTree}
    {fault : FileError} (hne : w.directory ≠ "")
    (hfault : FileTree.pathFault? w.directory = some fault) :
    resultOn (w.ensureDirectory host) t =
      (.error (.directoryUnavailable w.directory fault.message), t) := by
  have hmissing : fault ≠ .notFound := by
    rintro rfl
    rw [FileTree.pathFault?] at hfault
    split_ifs at hfault <;> cases hfault
  have hresolve : t.resolve w.directory = .error fault := by rw [FileTree.resolve, hfault]
  have hcreate : t.createDirectory w.directory = .error fault := by
    rw [FileTree.createDirectory, FileTree.lastStep, hfault]
    rfl
  obtain ⟨above, habove⟩ := FileTree.exists_ancestorsAux_cons w.directory.length w.directory
  have hcreated : t.createDirectories w.directory = (t, .error fault) := by
    rw [FileTree.createDirectories, FileTree.ancestors, habove,
      FileTree.createChain_cons_of_found above hne (by simpa [hcreate] using hmissing),
      FileTree.createOrHave, hcreate, FileTree.isDirectory_eq, hresolve]
    rfl
  rw [ensureDirectory_of_missing host hresolve, hcreated]

/-! ## The files -/

theorem writeFile_result (host : Host) (path content : String) (t : FileTree) :
    resultOn (writeFile host path content) t =
      match t.write path content.toUTF8 with
      | .ok u => (.ok content.utf8ByteSize, u)
      | .error e => (.error (.writeFailed path e.message), t) := by
  rw [writeFile, resultOn_get_bind]
  rcases t.write path content.toUTF8 with e | u <;> rfl

def kindParcel (w : FileWriter) (inv : Inventory) (k : Kind) : Parcel :=
  ⟨w.file k, k.collection ++ ".txt", (inv.render k).toUTF8⟩

def manifestText (w : FileWriter) (host : Host) (inv : Inventory) : String :=
  (manifest host.clock.timestamp w.source inv).pretty

def manifestParcels (w : FileWriter) (host : Host) (inv : Inventory) : List Parcel :=
  match w.format with
  | .text => []
  | .json => [⟨w.manifestFile, manifestName, (w.manifestText host inv).toUTF8⟩]

def parcels (w : FileWriter) (host : Host) (inv : Inventory) : List Parcel :=
  Kind.all.map (w.kindParcel inv) ++ w.manifestParcels host inv

/-- The names of the files that a writer may change. -/
def outputNames : List String :=
  Kind.all.map (fun k => k.collection ++ ".txt") ++ [manifestName]

def addKind (w : FileWriter) (inv : Inventory) (done : Written) (k : Kind) : Written :=
  { done with
    files := done.files ++ [w.file k]
    records := done.records + inv.count k
    bytes := done.bytes + (inv.render k).utf8ByteSize }

def addManifest (w : FileWriter) (host : Host) (inv : Inventory) (done : Written) : Written :=
  match w.format with
  | .text => done
  | .json =>
    { done with
      files := done.files ++ [w.manifestFile]
      bytes := done.bytes + (w.manifestText host inv).utf8ByteSize }

def written (w : FileWriter) (host : Host) (inv : Inventory) : Written :=
  w.addManifest host inv (Kind.all.foldl (w.addKind inv) { destination := w.directory })

theorem isName_of_mem_outputNames {name : String} (h : name ∈ outputNames) :
    IsName name ∧ name.utf8ByteSize ≤ FileTree.maxNameBytes := by
  have hall : ∀ n ∈ outputNames, Path.isIdle n = false ∧ n ≠ ".." ∧ '/' ∉ n.toList ∧
      n.utf8ByteSize ≤ FileTree.maxNameBytes := by decide
  obtain ⟨hidle, hup, hslash, hsize⟩ := hall name h
  exact ⟨⟨hidle, hup, hslash⟩, hsize⟩

theorem name_mem_outputNames {w : FileWriter} {host : Host} {inv : Inventory} {parcel : Parcel}
    (h : parcel ∈ w.parcels host inv) : parcel.name ∈ outputNames := by
  rcases List.mem_append.mp h with h | h
  · obtain ⟨k, hk, rfl⟩ := List.mem_map.mp h
    exact List.mem_append_left _ (List.mem_map_of_mem hk)
  · rw [manifestParcels] at h
    split at h
    · cases h
    · obtain rfl := List.mem_singleton.mp h
      exact List.mem_append_right _ (List.mem_singleton_self _)

def failure (w : FileWriter) (reason : String) : DeliveryError → WriteError
  | .blocked _ => .directoryUnavailable w.directory reason
  | .unwritten path e => .writeFailed path e.message

/-- A delivery, as its writer reports it. -/
def report {α : Type} (w : FileWriter) (reason : String) (value : α) :
    FileTree × Except DeliveryError Unit → Except WriteError α × FileTree
  | (u, .ok ()) => (.ok value, u)
  | (u, .error e) => (.error (w.failure reason e), u)

theorem boundFor_parcels (w : FileWriter) (host : Host) (inv : Inventory) :
    FileTree.BoundFor w.directory (w.parcels host inv) := by
  intro parcel h
  refine ⟨?_, isName_of_mem_outputNames (name_mem_outputNames h)⟩
  rcases List.mem_append.mp h with h | h
  · obtain ⟨k, -, rfl⟩ := List.mem_map.mp h
    rfl
  · rw [manifestParcels] at h
    split at h
    · cases h
    · obtain rfl := List.mem_singleton.mp h
      rfl

section Files

variable (w : FileWriter) (host : Host) (inv : Inventory) (reason : String) (t : FileTree)

theorem writeKinds_run (kinds : List Kind) (done : Written) :
    resultOn (kinds.foldlM (w.writeKind host inv) done) t =
      w.report reason (kinds.foldl (w.addKind inv) done)
        (t.writeParcels (kinds.map (w.kindParcel inv))) := by
  induction kinds generalizing t done with
  | nil => rfl
  | cons k kinds ih =>
      rw [List.foldlM_cons, resultOn_bind, writeKind, resultOn_bind, writeFile_result,
        List.map_cons, FileTree.writeParcels, kindParcel]
      rcases t.write (w.file k) (inv.render k).toUTF8 with e | u
      · rfl
      · exact ih u _

theorem writeManifest_run (hformat : w.format = .json) (done : Written) :
    resultOn (w.writeManifest host inv done) t =
      w.report reason (w.addManifest host inv done)
        (t.writeParcels (w.manifestParcels host inv)) := by
  rw [addManifest, manifestParcels, hformat]
  change resultOn (writeFile host w.manifestFile (w.manifestText host inv) >>= _) t = _
  rw [resultOn_bind, writeFile_result, FileTree.writeParcels]
  dsimp only
  rcases t.write w.manifestFile (w.manifestText host inv).toUTF8 with e | u <;> rfl

/-- A writer makes its directory, writes its files one after the other and reports on them. All
that is known of writers is read off this equation. -/
theorem write_run :
    resultOn (w.write host inv) t =
      match resultOn (w.ensureDirectory host) t with
      | (.ok (), made) =>
        w.report reason (w.written host inv) (made.writeParcels (w.parcels host inv))
      | (.error e, u) => (.error e, u) := by
  rw [write, resultOn_bind]
  rcases resultOn (w.ensureDirectory host) t with ⟨e | ⟨⟩, made⟩
  · rfl
  dsimp only
  rw [resultOn_bind, writeKinds_run w host inv reason, parcels, FileTree.writeParcels_append]
  rcases made.writeParcels (Kind.all.map (w.kindParcel inv)) with ⟨filled, e | ⟨⟩⟩
  · rfl
  rcases hformat : w.format with _ | _
  · simp only [report, written, addManifest, manifestParcels, hformat]
    rfl
  · dsimp only [report]
    rw [resultOn_bind, writeManifest_run w host inv reason filled hformat]
    rcases filled.writeParcels (w.manifestParcels host inv) with ⟨u, e | ⟨⟩⟩ <;> rfl

end Files

/-- A writer that succeeds has its directory and has written all its files there. -/
theorem writeParcels_of_write {w : FileWriter} {host : Host} {inv : Inventory} {t u : FileTree}
    {written : Written} (h : resultOn (w.write host inv) t = (.ok written, u)) :
    ∃ made, resultOn (w.ensureDirectory host) t = (.ok (), made) ∧
      made.writeParcels (w.parcels host inv) = (u, .ok ()) ∧ written = w.written host inv := by
  rw [w.write_run host inv ""] at h
  rcases hmake : resultOn (w.ensureDirectory host) t with ⟨e | ⟨⟩, made⟩ <;> rw [hmake] at h
  · cases h
  dsimp only at h
  rcases hfiles : made.writeParcels (w.parcels host inv) with ⟨v, e | ⟨⟩⟩ <;> rw [hfiles] at h
  · cases h
  · cases h
    exact ⟨made, rfl, hfiles, rfl⟩

theorem write_result {w : FileWriter} (host : Host) (inv : Inventory) {t : FileTree}
    (wf : t.WellFormed) (hfault : FileTree.pathFault? w.directory = none)
    (hlast : LastLeads (pieces w.directory)) :
    resultOn (w.write host inv) t =
      w.report (blockReason t w.directory) (w.written host inv)
        (t.deliver (t.origin w.directory) (steps w.directory) (w.parcels host inv)) := by
  rw [w.write_run host inv (blockReason t w.directory), ensureDirectory_result host wf hfault hlast,
    FileTree.deliver]
  rcases hmake : t.make (t.origin w.directory) (steps w.directory) with ⟨made, e | place⟩
  · rfl
  · obtain ⟨-, grows, hend⟩ := FileTree.make_spec wf (FileTree.at?_origin wf w.directory)
      (fun s hs => Path.isName_of_mem_steps hs) hmake
    have harrive := (hend place rfl).2
    rw [← FileTree.origin_congr grows.home rfl] at harrive
    dsimp only
    rw [(FileTree.writeParcels_in_place (boundFor_parcels w host inv) harrive).1]

theorem write_of_fault {w : FileWriter} (host : Host) (inv : Inventory) {t : FileTree}
    {fault : FileError} (hne : w.directory ≠ "")
    (hfault : FileTree.pathFault? w.directory = some fault) :
    resultOn (w.write host inv) t =
      (.error (.directoryUnavailable w.directory fault.message), t) := by
  rw [write, resultOn_bind, ensureDirectory_of_fault host hne hfault]

/-! ## Reasons in a tree that grows -/

/-- Without a detour a directory stays blocked for the same reason. -/
theorem blockReason_of_grows {names : List String} {t u : FileTree}
    (grows : FileTree.Grows names t u) (wf : t.WellFormed) (wf' : u.WellFormed) {path : String}
    (hfault : FileTree.pathFault? path = none) (hlast : LastLeads (pieces path))
    (hdetour : ¬ t.Detour (t.origin path) (steps path)) {e : FileError}
    (hmake : (t.make (t.origin path) (steps path)).2 = .error e)
    (hmake' : (u.make (u.origin path) (steps path)).2 = .error e) :
    blockReason u path = blockReason t path := by
  have hl : ∀ s ∈ steps path, s = ".." ∨ IsName s := fun s => Path.isName_of_mem_steps
  have horigin := FileTree.at?_origin wf path
  have hsame : u.origin path = t.origin path := FileTree.origin_congr grows.home rfl
  by_cases hmissing : t.resolve path = .error .notFound
  · have hwalk := hmissing
    rw [FileTree.resolve_eq_walk t hfault hlast] at hwalk
    have he : e = .nameTooLong :=
      FileTree.make_error_of_missing wf horigin hl hwalk hdetour (Prod.ext rfl hmake)
    subst he
    have hlater := FileTree.walk_of_make_nameTooLong wf' (FileTree.at?_origin wf' path) hl
      (Prod.ext rfl hmake')
    rw [← FileTree.resolve_eq_walk u hfault hlast] at hlater
    rw [blockReason, blockReason, hmissing, hmake]
    rcases hlater with hlater | hlater <;> rw [hlater]
    rw [hmake']
  · have hwalk := FileTree.walk_of_grows grows wf horigin
      (by rwa [← FileTree.resolve_eq_walk t hfault hlast])
    have hresolve : u.resolve path = t.resolve path := by
      rw [FileTree.resolve_eq_walk u hfault hlast, FileTree.resolve_eq_walk t hfault hlast, hsame,
        hwalk]
    rw [blockReason, blockReason, hresolve, hmake, hmake']

end FileWriter

end CInventory.Output
