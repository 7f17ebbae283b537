import Mathlib
import CInventory.Proofs.Writing

/-!
# Reading back what was written

A way that leads to a directory leads there in every later tree, so a file that stands in the
directory can be read through the path it was written to.
-/

namespace CInventory

open CInventory.Path (IsName steps)

theorem Text.fromUTF8?_toUTF8 (text : String) : String.fromUTF8? text.toUTF8 = some text := by
  have hvalid : text.toUTF8.IsValidUTF8 := text.isValidUTF8
  rw [String.fromUTF8?, dif_pos hvalid]
  rfl

theorem Text.utf8ByteSize_of_fromUTF8? {content : ByteArray} {text : String}
    (h : String.fromUTF8? content = some text) : text.utf8ByteSize = content.size := by
  rw [String.fromUTF8?] at h
  split at h
  · cases h
    rfl
  · cases h

namespace FileTree

theorem readBytes_eq_of_resolve {t : FileTree} {path : String} {there : Location}
    {content : ByteArray} (hresolve : t.resolve path = .ok there)
    (hfile : t.at? there = some (.file content)) : t.readBytes path = .ok content := by
  have hnode : t.node path = .ok (.file content) := by
    rw [node_eq, hresolve]
    simp only [Except.bind, hfile]
  rw [readBytes, hnode]
  rfl

theorem readText_of_readBytes {t : FileTree} {path text : String}
    (h : t.readBytes path = .ok text.toUTF8) : t.readText path = .ok text := by
  rw [readText, h]
  simp only [bind, Except.bind, Text.fromUTF8?_toUTF8]
  rfl

theorem fromUTF8?_of_readText {t : FileTree} {path text : String} {content : ByteArray}
    (hbytes : t.readBytes path = .ok content) (h : t.readText path = .ok text) :
    String.fromUTF8? content = some text := by
  rw [readText, hbytes] at h
  simp only [bind, Except.bind] at h
  rcases hdecode : String.fromUTF8? content with _ | text' <;> rw [hdecode] at h <;> cases h
  rfl

/-- A file in a directory can be read through the directory's path. -/
theorem readBytes_join {t : FileTree} {directory name : String} {place : Location}
    {content : ByteArray} (hfault : pathFault? (Path.join directory name) = none)
    (harrive : t.arrive (t.origin directory) (steps directory) = .ok place) (hname : IsName name)
    (hsize : name.utf8ByteSize ≤ maxNameBytes)
    (hfile : t.at? (place ++ [name]) = some (.file content)) :
    t.readBytes (Path.join directory name) = .ok content := by
  have habs := hname.not_absolute
  have hsteps : steps (Path.join directory name) = steps directory ++ [name] := by
    rw [Path.steps_join habs, hname.steps_eq]
  have hlast := Path.lastLeads_pieces_join directory habs hname.lastLeads
  have hresolve := t.resolve_of_steps hfault hlast hsteps
  rw [origin_congr rfl (Path.isAbsolute_join habs), harrive] at hresolve
  have hstep : t.step place name = .ok (place ++ [name]) := by
    have hplace := isDirectoryAt_iff.mpr (directory_of_arrive harrive)
    simp [step, hplace, hname.not_idle, hname.not_up, Nat.not_lt.mpr hsize, hfile]
  exact readBytes_eq_of_resolve (hresolve.trans hstep) hfile

theorem exists_arrive_of_write {t u : FileTree} {directory name : String} {content : ByteArray}
    (hname : IsName name) (h : t.write (Path.join directory name) content = .ok u) :
    pathFault? (Path.join directory name) = none ∧
      ∃ place, t.arrive (t.origin directory) (steps directory) = .ok place := by
  have habs := hname.not_absolute
  have hsteps : steps (Path.join directory name) = steps directory ++ [name] := by
    rw [Path.steps_join habs, hname.steps_eq]
  have hlast := Path.lastLeads_pieces_join directory habs hname.lastLeads
  rcases hfault : pathFault? (Path.join directory name) with _ | fault
  · have hstart := t.lastStep_of_steps hfault hlast hsteps
    rw [origin_congr rfl (Path.isAbsolute_join habs)] at hstart
    rcases harrive : t.arrive (t.origin directory) (steps directory) with e | place
    · rw [FileTree.write, hstart, harrive] at h
      cases h
    · exact ⟨rfl, place, rfl⟩
  · rw [FileTree.write, FileTree.lastStep, hfault] at h
    cases h

theorem exists_arrive_of_writeParcels {t u : FileTree} {directory : String}
    {parcels : List Parcel} (bound : BoundFor directory parcels) (hne : parcels ≠ [])
    (h : t.writeParcels parcels = (u, .ok ())) :
    ∃ place, t.arrive (t.origin directory) (steps directory) = .ok place := by
  obtain ⟨first, rest, rfl⟩ := List.exists_cons_of_ne_nil hne
  obtain ⟨hpath, hname, -⟩ := bound first List.mem_cons_self
  rw [writeParcels] at h
  rcases hwrite : t.write first.path first.content with e | v <;> rw [hwrite] at h
  · cases h
  · rw [hpath] at hwrite
    exact (exists_arrive_of_write hname hwrite).2

/-! ## Deliveries -/

/-- Files that could all be put into a directory stand there, and the rest is as before. -/
theorem putParcels_ok {t u : FileTree} {place : Location} {parcels : List Parcel}
    (distinct : (parcels.map Parcel.name).Nodup)
    (h : t.putParcels place parcels = (u, .ok ())) :
    (∀ parcel ∈ parcels, pathFault? parcel.path = none ∧
      u.at? (place ++ [parcel.name]) = some (.file parcel.content)) ∧
    ∀ p, (∀ parcel ∈ parcels, place ++ [parcel.name] ≠ p) → u.at? p = t.at? p := by
  induction parcels generalizing t with
  | nil =>
      obtain rfl := (Prod.mk.inj h).1
      exact ⟨by simp, fun _ _ => rfl⟩
  | cons parcel rest ih =>
      rw [List.map_cons, List.nodup_cons] at distinct
      rw [putParcels] at h
      rcases hput : t.putParcel place parcel with e | v <;> rw [hput] at h
      · cases h
      obtain ⟨hrest, hkeep⟩ := ih distinct.2 h
      have hfault := pathFault?_of_putParcel hput
      obtain ⟨-, rfl⟩ := putParcel_cases hput
      -- The files behind it have other names, so the first one keeps its content.
      have hfirst : u.at? (place ++ [parcel.name]) = some (.file parcel.content) := by
        rw [hkeep _ ?_, at?_put_self]
        intro other hother heq
        obtain hname : other.name = parcel.name := by simpa using heq
        exact distinct.1 (hname ▸ List.mem_map_of_mem hother)
      refine ⟨?_, ?_⟩
      · intro other hother
        rcases List.mem_cons.mp hother with rfl | hother
        · exact ⟨hfault, hfirst⟩
        · exact hrest other hother
      · intro p hp
        rw [hkeep p fun other hother => hp other (List.mem_cons_of_mem _ hother),
          at?_put_of_ne t _ (hp parcel List.mem_cons_self)]

theorem writeParcels_ok {t u : FileTree} {directory : String} {parcels : List Parcel}
    (bound : BoundFor directory parcels) (distinct : (parcels.map Parcel.name).Nodup)
    (h : t.writeParcels parcels = (u, .ok ())) :
    ∃ place,
      (∀ parcel ∈ parcels, u.readBytes parcel.path = .ok parcel.content ∧
        u.at? (place ++ [parcel.name]) = some (.file parcel.content)) ∧
      ∀ p, (∀ parcel ∈ parcels, place ++ [parcel.name] ≠ p) → u.at? p = t.at? p := by
  by_cases hnone : parcels = []
  · subst hnone
    cases h
    exact ⟨[], by simp, fun _ _ => rfl⟩
  · -- The place of the directory is not known beforehand: the first write gives it.
    obtain ⟨place, harrive⟩ := exists_arrive_of_writeParcels bound hnone h
    obtain ⟨hput, harrive'⟩ := writeParcels_in_place bound harrive
    rw [h] at hput
    rw [← hput] at harrive'
    obtain ⟨hfiles, hrest⟩ := putParcels_ok distinct hput.symm
    refine ⟨place, ?_, hrest⟩
    intro parcel hparcel
    obtain ⟨hfault, hfile⟩ := hfiles parcel hparcel
    obtain ⟨hpath, hname, hsize⟩ := bound parcel hparcel
    refine ⟨?_, hfile⟩
    rw [hpath] at hfault ⊢
    exact readBytes_join hfault harrive' hname hsize hfile

theorem deliver_ok {t u : FileTree} (wf : t.WellFormed) {place : Location}
    (hplace : t.at? place = some .directory) {l : List String}
    (hl : ∀ s ∈ l, s = ".." ∨ IsName s) {parcels : List Parcel}
    (hnames : ∀ parcel ∈ parcels, IsName parcel.name ∧ parcel.name.utf8ByteSize ≤ maxNameBytes)
    (distinct : (parcels.map Parcel.name).Nodup)
    (h : t.deliver place l parcels = (u, .ok ())) :
    ∃ there, u.arrive place l = .ok there ∧ ∀ parcel ∈ parcels, pathFault? parcel.path = none ∧
      u.at? (there ++ [parcel.name]) = some (.file parcel.content) := by
  rw [deliver] at h
  rcases hmake : t.make place l with ⟨v, e | there⟩ <;> rw [hmake] at h
  · cases h
  obtain ⟨wf', -, hend⟩ := make_spec wf hplace hl hmake
  obtain ⟨hthere, harrive⟩ := hend there rfl
  have grows := (putParcels_spec wf' hthere hnames).2
  dsimp only at h
  rw [h] at grows
  exact ⟨there, arrive_ok_of_grows grows harrive, (putParcels_ok distinct h).1⟩

end FileTree

namespace Output.FileWriter

open CInventory.FileTree (Parcel)

theorem nodup_names_parcels (w : FileWriter) (host : Host) (inv : Inventory) :
    ((w.parcels host inv).map Parcel.name).Nodup := by
  have hnames : (w.parcels host inv).map Parcel.name <+: outputNames := by
    rw [parcels, manifestParcels]
    cases w.format
    · exact ⟨[manifestName], rfl⟩
    · exact ⟨[], rfl⟩
  have hall : outputNames.Nodup := by decide
  exact hall.sublist hnames.sublist

/-- The files of a delivery that arrived can be read through the paths of its writer. -/
theorem readText_of_deliver {v : FileTree} (wf : v.WellFormed) {w : FileWriter} {host : Host}
    {inv : Inventory}
    (h : (v.deliver (v.origin w.directory) (steps w.directory) (w.parcels host inv)).2 = .ok ())
    (k : Kind) :
    (v.deliver (v.origin w.directory) (steps w.directory) (w.parcels host inv)).1.readText
      (w.file k) = .ok (inv.render k) := by
  have hnames : ∀ parcel ∈ w.parcels host inv,
      IsName parcel.name ∧ parcel.name.utf8ByteSize ≤ FileTree.maxNameBytes := fun parcel hmem =>
    isName_of_mem_outputNames (name_mem_outputNames hmem)
  have hplace := FileTree.at?_origin wf w.directory
  have hsteps : ∀ s ∈ steps w.directory, s = ".." ∨ IsName s := fun s => Path.isName_of_mem_steps
  have grows := (FileTree.deliver_spec wf hplace hsteps hnames).2
  rcases hdeliver : v.deliver (v.origin w.directory) (steps w.directory) (w.parcels host inv) with
    ⟨u, came⟩
  rw [hdeliver] at h grows
  obtain rfl : came = .ok () := h
  obtain ⟨there, harrive, hfiles⟩ := FileTree.deliver_ok wf hplace hsteps hnames
    (nodup_names_parcels w host inv) hdeliver
  rw [← FileTree.origin_congr grows.home rfl] at harrive
  have hmem : w.kindParcel inv k ∈ w.parcels host inv := by
    apply List.mem_append_left
    apply List.mem_map_of_mem
    cases k <;> decide
  obtain ⟨hfault, hfile⟩ := hfiles _ hmem
  obtain ⟨hname, hsize⟩ := hnames _ hmem
  exact FileTree.readText_of_readBytes (FileTree.readBytes_join hfault harrive hname hsize hfile)

end Output.FileWriter

end CInventory
