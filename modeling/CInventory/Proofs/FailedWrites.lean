import Mathlib
import CInventory.Command.Run
import CInventory.Proofs.Counts

/-!
# Writes that fail

A writer makes its directory and then writes its files one after the other. Making directories
changes no file. When a file cannot be written, those in front of it have been: they stay with
their new contents, and all other files are as they were.
-/

namespace CInventory

open Diagnostic Output
open CInventory.Path (IsName steps)

def Node.content? : Node → Option ByteArray
  | .file content => some content
  | .directory => none

namespace FileTree

def contentAt? (t : FileTree) (place : Location) : Option ByteArray :=
  (t.at? place).bind Node.content?

private theorem contentAt?_put (t : FileTree) (place : Location) (name : String) (node : Node)
    (p : Location) :
    (t.put (place ++ [name]) node).contentAt? p =
      if place ++ [name] = p then node.content? else t.contentAt? p := by
  rw [contentAt?, at?_put, contentAt?]
  split <;> rfl

/-! ## Making directories changes no file -/

def SameFiles (t u : FileTree) : Prop := ∀ place, u.contentAt? place = t.contentAt? place

theorem SameFiles.refl (t : FileTree) : SameFiles t t := fun _ => rfl

theorem SameFiles.trans {t u v : FileTree} (h : SameFiles t u) (h' : SameFiles u v) :
    SameFiles t v := fun place => (h' place).trans (h place)

theorem createDirectory_ok {t u : FileTree} {path : String} (h : t.createDirectory path = .ok u) :
    ∃ place name, t.at? (place ++ [name]) = none ∧ u = t.put (place ++ [name]) .directory := by
  rcases hlast : t.lastStep path with e | ⟨place, name⟩
  · rw [createDirectory, hlast] at h
    cases h
  · rw [createDirectory_of_lastStep hlast] at h
    split_ifs at h with _ _ hnew
    cases h
    exact ⟨place, name, by simpa using hnew, rfl⟩

private theorem sameFiles_of_createDirectory {t u : FileTree} {path : String}
    (h : t.createDirectory path = .ok u) : SameFiles t u := by
  obtain ⟨place, name, hnone, rfl⟩ := createDirectory_ok h
  intro p
  rw [contentAt?_put]
  split
  · next heq =>
      rw [← heq, contentAt?, hnone]
      rfl
  · rfl

private theorem sameFiles_createChain (t : FileTree) (paths : List String) :
    SameFiles t (t.createChain paths).1 := by
  induction paths generalizing t with
  | nil => exact .refl t
  | cons path above ih =>
      rw [createChain]
      split
      · exact .refl t
      · split
        · next u hmade => exact sameFiles_of_createDirectory hmade
        · have habove := ih t
          split
          · next u e hchain =>
              rw [hchain] at habove
              exact habove
          · next u hchain =>
              rw [hchain] at habove
              split
              · next v hmade => exact habove.trans (sameFiles_of_createDirectory hmade)
              · exact habove
        · exact .refl t

end FileTree

namespace Output.FileWriter

open CInventory.FileTree (Parcel SameFiles)

variable {w : FileWriter} {host : Host} {inv : Inventory} {t u : FileTree} {e : WriteError}

/-! ## Where a writer fails -/

theorem ensureDirectory_sameFiles (w : FileWriter) (host : Host) (t : FileTree) :
    SameFiles t (resultOn (w.ensureDirectory host) t).2 := by
  have hmade := FileTree.sameFiles_createChain t (FileTree.ancestors w.directory)
  rw [ensureDirectory_eq]
  split
  · exact .refl t
  · rw [FileTree.createDirectories]
    rcases hcreate : t.createChain (FileTree.ancestors w.directory) with ⟨v, e | ⟨⟩⟩ <;>
      rw [hcreate] at hmade <;> exact hmade

theorem ensureDirectory_error (h : resultOn (w.ensureDirectory host) t = (.error e, u)) :
    ∃ reason, e = .directoryUnavailable w.directory reason := by
  rw [ensureDirectory_eq] at h
  split at h
  · cases h
    exact ⟨_, rfl⟩
  · split at h <;> cases h
    exact ⟨_, rfl⟩

/-- A writer fails at its directory or at one of its files. Up to there it has changed no file
but those that it wrote. -/
theorem write_error (h : resultOn (w.write host inv) t = (.error e, u)) :
    (∃ reason, e = .directoryUnavailable w.directory reason ∧ SameFiles t u) ∨
      ∃ made front failed back reason, w.parcels host inv = front ++ failed :: back ∧
        e = .writeFailed failed.path reason ∧ SameFiles t made ∧
        made.writeParcels front = (u, .ok ()) := by
  have hsame := ensureDirectory_sameFiles w host t
  rw [w.write_run host inv ""] at h
  rcases hmake : resultOn (w.ensureDirectory host) t with ⟨e' | ⟨⟩, made⟩ <;>
    rw [hmake] at h hsame
  · cases h
    obtain ⟨reason, rfl⟩ := ensureDirectory_error hmake
    exact .inl ⟨reason, rfl, hsame⟩
  dsimp only at h
  rcases hfiles : made.writeParcels (w.parcels host inv) with ⟨v, fault | ⟨⟩⟩ <;> rw [hfiles] at h
  · cases h
    obtain ⟨front, failed, back, fault, hparcels, rfl, hfront⟩ := FileTree.writeParcels_error hfiles
    exact .inr ⟨made, front, failed, back, fault.message, hparcels, rfl, hsame, hfront⟩
  · cases h

/-- A write that fails at its directory leaves every file as it was. One that fails at a file has
written those in front of it, which can be read, and no other. So it leaves every file as it was
just if those had their new contents before. -/
theorem failed_write_leaves (w : FileWriter) (host : Host) (inv : Inventory) (t u : FileTree)
    (e : WriteError) (h : resultOn (w.write host inv) t = (.error e, u)) :
    (∃ reason, e = .directoryUnavailable w.directory reason ∧ SameFiles t u) ∨
      ∃ front failed back reason place, w.parcels host inv = front ++ failed :: back ∧
        e = .writeFailed failed.path reason ∧
        (∀ parcel ∈ front, u.readBytes parcel.path = .ok parcel.content ∧
          u.contentAt? (place ++ [parcel.name]) = some parcel.content) ∧
        (∀ p, (∀ parcel ∈ front, place ++ [parcel.name] ≠ p) →
          u.contentAt? p = t.contentAt? p) ∧
        (SameFiles t u ↔
          ∀ parcel ∈ front, t.contentAt? (place ++ [parcel.name]) = some parcel.content) := by
  refine (write_error h).imp_right ?_
  rintro ⟨made, front, failed, back, reason, hparcels, rfl, hsame, hfront⟩
  have bound := boundFor_parcels w host inv
  have distinct := nodup_names_parcels w host inv
  rw [hparcels] at bound distinct
  rw [List.map_append] at distinct
  obtain ⟨place, hfiles, hrest⟩ := FileTree.writeParcels_ok
    (fun parcel hparcel => bound parcel (List.mem_append_left _ hparcel))
    (List.nodup_append.mp distinct).1 hfront
  have hcontent : ∀ parcel ∈ front,
      u.contentAt? (place ++ [parcel.name]) = some parcel.content := by
    intro parcel hparcel
    rw [FileTree.contentAt?, (hfiles parcel hparcel).2]
    rfl
  have hother : ∀ p, (∀ parcel ∈ front, place ++ [parcel.name] ≠ p) →
      u.contentAt? p = t.contentAt? p := by
    intro p hp
    rw [← hsame p, FileTree.contentAt?, hrest p hp, FileTree.contentAt?]
  refine ⟨front, failed, back, reason, place, hparcels, rfl,
    fun parcel hparcel => ⟨(hfiles parcel hparcel).1, hcontent parcel hparcel⟩, hother, ?_⟩
  constructor
  · intro same parcel hparcel
    rw [← same, hcontent parcel hparcel]
  · intro before p
    by_cases hp : ∀ parcel ∈ front, place ++ [parcel.name] ≠ p
    · exact hother p hp
    · push Not at hp
      obtain ⟨parcel, hparcel, rfl⟩ := hp
      rw [hcontent parcel hparcel, before parcel hparcel]

/-- A source, and an output directory where a directory stands in the place of a file. -/
def blockedFile : FileTree :=
  ((({} : FileTree).put ["a.c"] (.file "const int A = 1;\nint b;\n".toUTF8)).put ["out"]
    .directory).put ["out", "variables.txt"] .directory

private theorem write_blockedFile :
    resultOn (FileWriter.write ⟨"out", .text, none⟩ {} .empty) blockedFile =
      (.error (.writeFailed "out/variables.txt" "Is a directory (os error 21)"),
        (resultOn (FileWriter.write ⟨"out", .text, none⟩ {} .empty) blockedFile).2) :=
  Prod.ext (by decide +kernel) rfl

theorem failed_write_leaves_blockedFile :
    ∃ u e, resultOn (FileWriter.write ⟨"out", .text, none⟩ {} .empty) blockedFile = (.error e, u) ∧
      ∃ front failed back reason, front ≠ [] ∧
        parcels ⟨"out", .text, none⟩ {} .empty = front ++ failed :: back ∧
        e = .writeFailed failed.path reason ∧
        ∀ parcel ∈ front, u.readBytes parcel.path = .ok parcel.content := by
  refine ⟨_, _, write_blockedFile, ?_⟩
  rcases failed_write_leaves _ _ _ _ _ _ write_blockedFile with
    ⟨reason, he, -⟩ | ⟨front, failed, back, reason, place, hparcels, he, hfront, -⟩
  · cases he
  · refine ⟨front, failed, back, reason, ?_, hparcels, he, fun parcel h => (hfront parcel h).1⟩
    -- The first file is not the one that the error names.
    rintro rfl
    have hfirst : kindParcel ⟨"out", .text, none⟩ .empty .constant = failed :=
      (List.cons.inj hparcels).1
    rw [← hfirst] at he
    injection he with hpath
    exact absurd hpath (by decide +kernel)

/-- A write that failed has changed a file, and so has a run that says that nothing was written. -/
theorem failed_write_not_sameFiles :
    (∃ e u, resultOn (FileWriter.write ⟨"out", .text, none⟩ {} .empty) blockedFile = (.error e, u) ∧
      ¬ SameFiles blockedFile u) ∧
    ∃ r, r = Command.run {} {} blockedFile ["a.c", "--output-dir", "out"] [] ∧
      "Scan completed but nothing was written:" ∈ r.session.stderr ∧
      ¬ SameFiles blockedFile r.tree := by
  refine ⟨⟨_, _, write_blockedFile, fun same => ?_⟩, _, rfl, by decide +kernel, fun same => ?_⟩
  all_goals
    have hconstants := same ["out", "constants.txt"]
    revert hconstants
    decide +kernel

end Output.FileWriter

end CInventory
