import Mathlib
import CInventory.Proofs.FailedWrites
import CInventory.Proofs.Traversal

/-!
# Memory in the place of files

A memory that stands in for a directory reports the same numbers as a file writer and holds the
lines that the files hold. A file writer that can write one inventory can write every other, and
goes on to do so: what stands in its files then are the lines of the last one.
-/

namespace CInventory

open Diagnostic Output
open CInventory.Path (IsName steps pieces)

/-! ## Lines and their bytes -/

namespace Inventory

private theorem foldl_lines (lines : List String) (front : String) :
    lines.foldl (fun content text => content ++ text ++ "\n") front =
      front ++ String.join (lines.map (· ++ "\n")) := by
  induction lines generalizing front with
  | nil => simp
  | cons line lines ih =>
      rw [List.foldl_cons, ih, List.map_cons, String.join_cons]
      simp only [String.append_assoc]

theorem render_eq_join (inv : Inventory) (k : Kind) :
    inv.render k = String.join ((inv.texts k).map (· ++ "\n")) := by
  rw [render, foldl_lines, String.empty_append]

def renderedBytes (inv : Inventory) : Nat :=
  (Kind.all.map fun k => (inv.render k).utf8ByteSize).sum

end Inventory

theorem Output.Memory.foldl_lineBytes (lines : List String) (front : String) :
    lines.foldl (fun n line => n + line.utf8ByteSize + 1) front.utf8ByteSize =
      (lines.foldl (fun content text => content ++ text ++ "\n") front).utf8ByteSize := by
  induction lines generalizing front with
  | nil => rfl
  | cons line lines ih =>
      rw [List.foldl_cons, List.foldl_cons, ← ih, String.utf8ByteSize_append,
        String.utf8ByteSize_append]
      rfl

theorem Output.Memory.lineBytes_texts (inv : Inventory) (k : Kind) :
    lineBytes (inv.texts k) = (inv.render k).utf8ByteSize :=
  foldl_lineBytes (inv.texts k) ""

/-! ## Directories that are there -/

namespace FileTree

variable {t : FileTree} {path : String}

private theorem createDirectory_of_isDirectory (h : t.isDirectory path = true) :
    ∃ e, e ≠ .notFound ∧ t.createDirectory path = .error e := by
  obtain ⟨there, hresolve, hthere⟩ := isDirectory_iff.mp h
  have hfault := pathFault?_of_resolve hresolve
  rw [resolve, hfault] at hresolve
  rcases hdrop : (pieces path).reverse.dropWhile (· = "") with _ | ⟨last, before⟩
  · refine ⟨.alreadyExists, by decide, ?_⟩
    rw [createDirectory, lastStep, hfault, hdrop]
    rfl
  have hlast : last ≠ "" := by
    have hhead := List.head_dropWhile_not (p := (decide <| · = "")) (l := (pieces path).reverse)
      (by rw [hdrop]; exact List.cons_ne_nil _ _)
    simpa [hdrop] using hhead
  -- The path leads over its last piece, which therefore stands in a directory.
  have hpieces := congrArg List.reverse
    (List.takeWhile_append_dropWhile (p := (decide <| · = "")) (l := (pieces path).reverse))
  rw [hdrop, List.reverse_reverse, List.reverse_append, List.reverse_cons] at hpieces
  dsimp only at hresolve
  rw [← hpieces, walk_append, walk_concat] at hresolve
  obtain ⟨mid, hmid, -⟩ := bind_eq_ok hresolve
  obtain ⟨place, harrive, hstep⟩ := bind_eq_ok hmid
  have hplace := isDirectoryAt_iff.mpr (directory_of_arrive harrive)
  have hstart : t.lastStep path = .ok (place, last) := by
    obtain ⟨there, hwalk, hthere⟩ := bind_eq_ok harrive
    split at hthere <;> cases hthere
    rw [lastStep, hfault, hdrop]
    simp only [hwalk, bind, Except.bind, hplace, if_true]
    rfl
  rw [createDirectory_of_lastStep hstart]
  split_ifs with hdots hlong hsome
  · exact ⟨.alreadyExists, by decide, rfl⟩
  · exact ⟨.nameTooLong, by decide, rfl⟩
  · exact ⟨.alreadyExists, by decide, rfl⟩
  · simp only [Bool.or_eq_true, decide_eq_true_eq, not_or] at hdots
    simp [step, hplace, Path.isIdle, hlast, hdots, hlong, hsome] at hstep

theorem createDirectories_of_isDirectory (h : t.isDirectory path = true) :
    t.createDirectories path = (t, .ok ()) := by
  obtain ⟨e, hfound, hcreate⟩ := createDirectory_of_isDirectory h
  obtain ⟨there, hresolve, -⟩ := isDirectory_iff.mp h
  obtain ⟨above, habove⟩ := exists_ancestorsAux_cons path.length path
  rw [createDirectories, ancestors, habove, createChain_cons_of_found above
    (ne_empty_of_pathFault? (pathFault?_of_resolve hresolve)) (by rw [hcreate]; simpa using hfound),
    createOrHave, hcreate]
  simp [h]

/-! ## Directories that take files -/

/-- A directory is there, and files with these names can be written into it. -/
def Takes (t : FileTree) (directory : String) (names : List String) : Prop :=
  ∃ place, t.arrive (t.origin directory) (steps directory) = .ok place ∧
    ∀ name ∈ names, pathFault? (Path.join directory name) = none ∧
      t.at? (place ++ [name]) ≠ some .directory

variable {u : FileTree} {directory : String} {names : List String} {parcels : List Parcel}

theorem Takes.isDirectory (takes : t.Takes directory names) (hdirectory : directory ≠ "")
    {name : String} (hmem : name ∈ names) (hname : IsName name) :
    t.isDirectory directory = true := by
  obtain ⟨place, harrive, hnames⟩ := takes
  have hlonger : directory.toList <+: ([name].foldl Path.join directory).toList :=
    Path.isPrefix_foldl_join directory (by simpa using hname)
  have hfault := pathFault?_of_isPrefix hlonger hdirectory (hnames name hmem).1
  exact isDirectory_iff.mpr ⟨place, resolve_of_arrive hfault harrive, directory_of_arrive harrive⟩

/-- A file can be written, and then the directory takes files as before. -/
theorem Takes.write (takes : t.Takes directory names) {name : String} (hmem : name ∈ names)
    (hname : IsName name) (hsize : name.utf8ByteSize ≤ maxNameBytes) (content : ByteArray) :
    ∃ u, t.write (Path.join directory name) content = .ok u ∧ u.Takes directory names := by
  obtain ⟨place, harrive, hnames⟩ := takes
  obtain ⟨hfault, hnode⟩ := hnames name hmem
  refine ⟨t.put (place ++ [name]) (.file content), ?_, place, ?_, ?_⟩
  · rw [write_join harrive hname hsize, putParcel, hfault]
    dsimp only
    split
    · next hthere => exact absurd hthere hnode
    · rfl
  · exact arrive_ok_of_grows (Grows.put_file content hmem hnode) harrive
  · intro other hother
    refine ⟨(hnames other hother).1, ?_⟩
    rw [at?_put]
    split
    · simp
    · exact (hnames other hother).2

theorem Takes.writeParcels (takes : t.Takes directory names) (bound : BoundFor directory parcels)
    (hnames : ∀ parcel ∈ parcels, parcel.name ∈ names) :
    ∃ u, t.writeParcels parcels = (u, .ok ()) ∧ u.Takes directory names := by
  induction parcels generalizing t with
  | nil => exact ⟨t, rfl, takes⟩
  | cons parcel parcels ih =>
      obtain ⟨hpath, hname, hsize⟩ := bound parcel List.mem_cons_self
      obtain ⟨v, hwrite, takes'⟩ :=
        takes.write (hnames parcel List.mem_cons_self) hname hsize parcel.content
      rw [FileTree.writeParcels, hpath, hwrite]
      exact ih takes' (fun other hother => bound other (List.mem_cons_of_mem _ hother))
        fun other hother => hnames other (List.mem_cons_of_mem _ hother)

theorem free_of_putParcels {place : Location} (h : t.putParcels place parcels = (u, .ok ())) :
    ∀ parcel ∈ parcels, pathFault? parcel.path = none ∧
      t.at? (place ++ [parcel.name]) ≠ some .directory := by
  induction parcels generalizing t with
  | nil => simp
  | cons first parcels ih =>
      rw [putParcels] at h
      rcases hput : t.putParcel place first with e | v <;> rw [hput] at h
      · cases h
      have hfault := pathFault?_of_putParcel hput
      obtain ⟨hnode, rfl⟩ := putParcel_cases hput
      intro parcel hmem
      rcases List.mem_cons.mp hmem with rfl | hmem
      · exact ⟨hfault, hnode⟩
      · obtain ⟨hrest, hthere⟩ := ih h parcel hmem
        refine ⟨hrest, fun hdirectory => ?_⟩
        -- A name that comes twice was no directory the first time.
        by_cases hsame : place ++ [first.name] = place ++ [parcel.name]
        · exact hnode (hsame ▸ hdirectory)
        · exact hthere (by rw [at?_put_of_ne t _ hsame, hdirectory])

theorem takes_of_writeParcels (bound : BoundFor directory parcels) (hne : parcels ≠ [])
    (h : t.writeParcels parcels = (u, .ok ())) : t.Takes directory (parcels.map Parcel.name) := by
  obtain ⟨place, harrive⟩ := exists_arrive_of_writeParcels bound hne h
  rw [(writeParcels_in_place bound harrive).1] at h
  refine ⟨place, harrive, ?_⟩
  intro name hmem
  obtain ⟨parcel, hparcel, rfl⟩ := List.mem_map.mp hmem
  rw [← (bound parcel hparcel).1]
  exact free_of_putParcels h parcel hparcel

end FileTree

namespace Output

/-! ## When a file writer succeeds -/

namespace FileWriter

open CInventory.FileTree (Parcel)

variable {w : FileWriter} {host : Host} {inv : Inventory} {t u made : FileTree}
  {written : Written}

def names (w : FileWriter) : List String :=
  (Kind.all.map fun k => k.collection ++ ".txt") ++
    match w.format with
    | .text => []
    | .json => [manifestName]

theorem map_name_parcels (w : FileWriter) (host : Host) (inv : Inventory) :
    (w.parcels host inv).map Parcel.name = w.names := by
  rw [parcels, manifestParcels, names]
  cases w.format <;> rfl

/-- A writer can write: its directory can be had, and then takes its files. -/
def Ready (w : FileWriter) (host : Host) (t : FileTree) : Prop :=
  ∃ made, resultOn (w.ensureDirectory host) t = (.ok (), made) ∧ made.Takes w.directory w.names

/-- A writer that has its directory and can write its files there succeeds. -/
theorem write_of_writeParcels (hmade : resultOn (w.ensureDirectory host) t = (.ok (), made))
    (h : made.writeParcels (w.parcels host inv) = (u, .ok ())) :
    resultOn (w.write host inv) t = (.ok (w.written host inv), u) := by
  rw [w.write_run host inv "", hmade]
  dsimp only
  rw [h]
  rfl

theorem ensureDirectory_of_takes (host : Host) (takes : t.Takes w.directory w.names) :
    resultOn (w.ensureDirectory host) t = (.ok (), t) := by
  by_cases hdirectory : w.directory = ""
  · rw [ensureDirectory_eq, hdirectory]
    rfl
  · have hname : "constants.txt" ∈ w.names := List.mem_append_left _ (by decide)
    have hisDirectory := takes.isDirectory hdirectory hname (by constructor <;> decide)
    rw [ensureDirectory_eq, hisDirectory, FileTree.createDirectories_of_isDirectory hisDirectory]
    simp

structure Holds (w : FileWriter) (host : Host) (t : FileTree) (inv : Inventory) : Prop where
  lines : ∀ k, t.readText (w.file k) = .ok (String.join ((inv.texts k).map (· ++ "\n")))
  manifest : w.format = .json → t.readText w.manifestFile = .ok (w.manifestText host inv)

theorem holds_of_write (h : resultOn (w.write host inv) t = (.ok written, u)) :
    w.Holds host u inv where
  lines k := by
    obtain ⟨made, -, hwrites, -⟩ := writeParcels_of_write h
    obtain ⟨place, hfiles, -⟩ := FileTree.writeParcels_ok (boundFor_parcels w host inv)
      (nodup_names_parcels w host inv) hwrites
    have hmem : w.kindParcel inv k ∈ w.parcels host inv :=
      List.mem_append_left _ (List.mem_map_of_mem (by cases k <;> decide))
    rw [← Inventory.render_eq_join]
    exact FileTree.readText_of_readBytes (hfiles _ hmem).1
  manifest := (write_ok h).2

/-- One write shows that the writer was ready, whatever was written. -/
theorem ready_of_write (h : resultOn (w.write host inv) t = (.ok written, u)) :
    w.Ready host t := by
  obtain ⟨made, hmade, hwrites, -⟩ := writeParcels_of_write h
  refine ⟨made, hmade, ?_⟩
  rw [← map_name_parcels w host inv]
  exact FileTree.takes_of_writeParcels (boundFor_parcels w host inv) (List.cons_ne_nil _ _) hwrites

/-- A writer that is ready writes any inventory, and is ready again. -/
theorem Ready.write (ready : w.Ready host t) (inv : Inventory) :
    ∃ u, resultOn (w.write host inv) t = (.ok (w.written host inv), u) ∧ w.Ready host u ∧
      w.Holds host u inv := by
  obtain ⟨made, hmade, takes⟩ := ready
  obtain ⟨u, hwrites, takes'⟩ := takes.writeParcels (boundFor_parcels w host inv) fun parcel hmem =>
    map_name_parcels w host inv ▸ List.mem_map_of_mem hmem
  have hwrite := write_of_writeParcels hmade hwrites
  exact ⟨u, hwrite, ⟨u, ensureDirectory_of_takes host takes', takes'⟩, holds_of_write hwrite⟩

/-! ## Reports -/

def summary (w : FileWriter) (host : Host) (inv : Inventory) : Written :=
  match w.format with
  | .text => ⟨w.directory, Kind.all.map w.file, inv.size, inv.renderedBytes⟩
  | .json =>
    ⟨w.directory, Kind.all.map w.file ++ [w.manifestFile], inv.size,
      inv.renderedBytes + (w.manifestText host inv).utf8ByteSize⟩

private theorem foldl_addKind (w : FileWriter) (inv : Inventory) :
    Kind.all.foldl (w.addKind inv) { destination := w.directory } =
      ⟨w.directory, Kind.all.map w.file, inv.size, inv.renderedBytes⟩ := by
  simp [Kind.all, addKind, Inventory.size, Inventory.renderedBytes, Nat.add_assoc]

theorem written_eq_summary (w : FileWriter) (host : Host) (inv : Inventory) :
    w.written host inv = w.summary host inv := by
  cases hformat : w.format <;> simp [written, foldl_addKind, addManifest, summary, hformat]

end FileWriter

namespace Memory

def summary (inv : Inventory) : Written := ⟨"memory", [], inv.size, inv.renderedBytes⟩

theorem foldl_lineBytes_texts (inv : Inventory) :
    Kind.all.foldl (fun n k => n + lineBytes (inv.texts k)) 0 = inv.renderedBytes := by
  simp [Kind.all, lineBytes_texts, Inventory.renderedBytes, Nat.add_assoc]

theorem write_working (inv : Inventory) (m : Memory) :
    resultOn (write false inv) m = (.ok (summary inv), ⟨inv.texts, m.writes + 1⟩) := by
  rw [summary, ← foldl_lineBytes_texts]
  rfl

theorem write_failing (inv : Inventory) (m : Memory) :
    resultOn (write true inv) m =
      (.error (.writeFailed "memory" "writer configured to fail"), ⟨m.lines, m.writes + 1⟩) :=
  rfl

end Memory

/-! ## One inventory after the other -/

/-- Write inventories in turn, whether they can be written or not. -/
def Destination.writeEach {σ : Type} (d : Destination σ) :
    List Inventory → σ → List (Except WriteError Written) × σ
  | [], s => ([], s)
  | inv :: rest, s =>
    let (answer, u) := resultOn (d.write inv) s
    let (answers, v) := d.writeEach rest u
    (answer :: answers, v)

theorem Destination.writeEach_cons {σ : Type} {d : Destination σ} {inv : Inventory} {s u v : σ}
    {rest : List Inventory} {answer : Except WriteError Written}
    {answers : List (Except WriteError Written)} (h : resultOn (d.write inv) s = (answer, u))
    (hrest : d.writeEach rest u = (answers, v)) :
    d.writeEach (inv :: rest) s = (answer :: answers, v) := by
  simp only [writeEach, h, hrest]

theorem Memory.writeEach_working (invs : List Inventory) (m : Memory) :
    (Memory.destination false).writeEach invs m =
      (invs.map fun inv => .ok (summary inv),
        ⟨invs.getLast?.elim m.lines Inventory.texts, m.writes + invs.length⟩) := by
  induction invs generalizing m with
  | nil => rfl
  | cons inv rest ih =>
      rw [Destination.writeEach_cons (write_working inv m) (ih _), List.getLast?_cons,
        List.length_cons, Nat.add_right_comm, Nat.add_assoc]
      cases rest.getLast? <;> rfl

theorem Memory.writeEach_failing (invs : List Inventory) (m : Memory) :
    (Memory.destination true).writeEach invs m =
      (invs.map fun _ => .error (.writeFailed "memory" "writer configured to fail"),
        ⟨m.lines, m.writes + invs.length⟩) := by
  induction invs generalizing m with
  | nil => rfl
  | cons inv rest ih =>
      rw [Destination.writeEach_cons (write_failing inv m) (ih _), List.length_cons,
        Nat.add_right_comm, Nat.add_assoc]
      rfl

/-- A file writer that is ready writes one inventory after the other. The files then hold the
last one. -/
theorem FileWriter.Ready.writeEach {w : FileWriter} {host : Host} {t : FileTree}
    (ready : w.Ready host t) (invs : List Inventory) :
    ∃ u, (w.destination host).writeEach invs t =
        (invs.map fun inv => .ok (w.summary host inv), u) ∧
      ∀ last ∈ invs.getLast?, w.Holds host u last := by
  induction invs generalizing t with
  | nil => exact ⟨t, rfl, by simp⟩
  | cons inv rest ih =>
      obtain ⟨v, hwrite, ready', holds⟩ := ready.write inv
      rw [written_eq_summary] at hwrite
      obtain ⟨u, heach, hlast⟩ := ih ready'
      refine ⟨u, Destination.writeEach_cons hwrite heach, ?_⟩
      rcases rest with _ | ⟨next, rest⟩
      · -- Nothing follows, so the files are those just written.
        obtain rfl : v = u := congrArg Prod.snd heach
        simpa using holds
      · rwa [List.getLast?_cons_cons]

/-- Memory stands in for files. Over any inventories, one after the other, a memory answers with
the numbers of a file writer for texts, and keeps the lines of the last inventory; the files of a
writer hold these lines with a line feed behind each, and a manifest adds its bytes and no more.
A file writer is stopped by what stands in its way, never by what is written. A memory that fails
only counts. -/
theorem memory_stands_in (w : FileWriter) (host : Host) (t : FileTree) (m : Memory)
    (invs : List Inventory) :
    (∀ inv, (∃ written u, resultOn (w.write host inv) t = (.ok written, u)) ↔ w.Ready host t) ∧
    (Memory.destination true).writeEach invs m =
      (invs.map fun _ => .error (.writeFailed "memory" "writer configured to fail"),
        ⟨m.lines, m.writes + invs.length⟩) ∧
    ∃ after : Memory,
      (Memory.destination false).writeEach invs m =
        (invs.map fun inv => .ok ⟨"memory", [], inv.size, inv.renderedBytes⟩, after) ∧
      after.writes = m.writes + invs.length ∧
      (∀ last ∈ invs.getLast?, after.lines = last.texts) ∧
      (w.Ready host t → ∃ u, (w.destination host).writeEach invs t =
          (invs.map fun inv => .ok (w.summary host inv), u) ∧
        (invs ≠ [] → ∀ k, u.readText (w.file k) =
          .ok (String.join ((after.lines k).map (· ++ "\n")))) ∧
        (w.format = .json → ∀ last ∈ invs.getLast?,
          u.readText w.manifestFile = .ok (w.manifestText host last))) := by
  refine ⟨fun inv => ⟨?_, ?_⟩, Memory.writeEach_failing invs m, _,
    Memory.writeEach_working invs m, rfl, ?_, ?_⟩
  · rintro ⟨written, u, hwrite⟩
    exact FileWriter.ready_of_write hwrite
  · intro ready
    obtain ⟨u, hwrite, -⟩ := ready.write inv
    exact ⟨_, u, hwrite⟩
  · intro last hlast
    rw [Option.mem_def.mp hlast]
    rfl
  · intro ready
    obtain ⟨u, heach, holds⟩ := ready.writeEach invs
    refine ⟨u, heach, ?_, fun hformat last hlast => (holds last hlast).manifest hformat⟩
    intro hne k
    have hlast := List.getLast?_eq_some_getLast hne
    rw [(holds _ hlast).lines k, hlast]
    rfl

def holding (texts : List String) : Inventory :=
  Inventory.empty.addAll (texts.map fun text => ⟨.variable, text, .point .start⟩)

def withManifest : FileWriter := { directory := "out", format := .json }

theorem ready_withManifest : withManifest.Ready {} {} := by
  refine ⟨_, Prod.ext (by decide +kernel) rfl, ["out"], by decide +kernel, ?_⟩
  intro name hname
  rw [Ne, ← FileTree.isDirectoryAt_iff]
  revert name
  decide +kernel

theorem memory_stands_in_shorter :
    withManifest.Ready {} {} ∧
    ∃ u, (withManifest.destination {}).writeEach
        [holding ["int ä;", "int b;"], holding ["int c;"]] {} =
        ([.ok (withManifest.summary {} (holding ["int ä;", "int b;"])),
          .ok (withManifest.summary {} (holding ["int c;"]))], u) ∧
      u.readText "out/variables.txt" = .ok "int c;\n" := by
  obtain ⟨-, -, after, -, -, hlast, hfiles⟩ := memory_stands_in withManifest {} {} {}
    [holding ["int ä;", "int b;"], holding ["int c;"]]
  obtain ⟨u, heach, hlines, -⟩ := hfiles ready_withManifest
  have htext := hlines (List.cons_ne_nil _ _) .variable
  rw [hlast _ rfl] at htext
  refine ⟨ready_withManifest, u, heach, ?_⟩
  have hfile : withManifest.file .variable = "out/variables.txt" := by decide +kernel
  rw [← hfile, htext]
  decide +kernel

end Output

end CInventory
