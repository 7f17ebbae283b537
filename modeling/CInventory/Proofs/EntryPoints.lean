import Mathlib
import CInventory.Proofs.BatchOutput
import CInventory.Proofs.Counts
import CInventory.Proofs.Catalogers
import CInventory.Proofs.SafeRuns

/-!
# Ways to a catalog

A file can be cataloged, cataloged and written, or cataloged, written and reported. All three read
it in the same way and scan the text that was read. A file that is refused reaches no destination.
Any other is handed over once, and its catalog is in what comes back: without its inventory when
that was written, with it when that failed.
-/

namespace CInventory

open Diagnostic Output

/-! ## What a destination is given -/

namespace Output.Destination

variable {σ : Type}

/-- A destination that also keeps every inventory that it is given. -/
def noting (d : Destination σ) : Destination (σ × List Inventory) where
  shown := d.shown
  write inv := ExceptT.mk fun (s, given) => do
    let (result, u) ← (d.write inv).run s
    return (result, u, given ++ [inv])

theorem resultOn_noting {d : Destination σ} {inv : Inventory} {s u : σ}
    {result : Except WriteError Written} (h : resultOn (d.write inv) s = (result, u))
    (given : List Inventory) :
    resultOn (d.noting.write inv) (s, given) = (result, u, given ++ [inv]) := by
  change ((resultOn (d.write inv) s).1, (resultOn (d.write inv) s).2, given ++ [inv]) = _
  rw [h]

/-- A destination that says it wrote as many records as it was given. -/
def Counts (d : Destination σ) : Prop :=
  ∀ inv s written u, resultOn (d.write inv) s = (.ok written, u) → written.records = inv.size

private theorem counts_files (w : FileWriter) (host : Host) : (w.destination host).Counts := by
  intro inv s written u h
  rw [(FileWriter.write_ok h).1, FileWriter.records_written]

private theorem counts_memory (failing : Bool) : (Memory.destination failing).Counts :=
  fun _ _ _ _ => Memory.write_ok

end Output.Destination

section Works

variable {σ α : Type}
  (work : {τ : Type} → Destination τ → ExceptT CatalogError (StateT τ Logged) α)

/-- Work that comes to `result` with `d` from `s`, and gives `d` the inventories `given` on its
way. -/
structure Gives (d : Destination σ) (s : σ) (result : Except CatalogError α × σ)
    (given : List Inventory) : Prop where
  result_eq : resultOn (work d) s = result
  given_eq : resultOn (work d.noting) (s, []) = (result.1, result.2, given)

/-- Work that writes a catalog, if there is one, and makes `f` of it and of what was written. -/
structure HandsOver (catalog : Except CatalogError Catalog) (f : Catalog → Written → α) :
    Prop where
  refused {τ : Type} {d : Destination τ} {s : τ} {e : CatalogError}
    (hcatalog : catalog = .error e) : resultOn (work d) s = (.error e, s)
  written {τ : Type} {d : Destination τ} {s u : τ} {c : Catalog} {w : Written}
    (hcatalog : catalog = .ok c) (hwrite : resultOn (d.write c.inventory) s = (.ok w, u)) :
    resultOn (work d) s = (.ok (f c w), u)
  unwritten {τ : Type} {d : Destination τ} {s u : τ} {c : Catalog} {e : WriteError}
    (hcatalog : catalog = .ok c) (hwrite : resultOn (d.write c.inventory) s = (.error e, u)) :
    resultOn (work d) s = (.error (.output e c), u)

variable {work} {catalog : Except CatalogError Catalog} {f : Catalog → Written → α}
  {d : Destination σ} {s u : σ} {c : Catalog}

namespace HandsOver

private theorem gives_nothing (hands : HandsOver work catalog f) {e : CatalogError}
    (hcatalog : catalog = .error e) : Gives work d s (.error e, s) [] :=
  ⟨hands.refused hcatalog, hands.refused hcatalog⟩

private theorem gives_written (hands : HandsOver work catalog f) {w : Written}
    (hcatalog : catalog = .ok c) (hwrite : resultOn (d.write c.inventory) s = (.ok w, u)) :
    Gives work d s (.ok (f c w), u) [c.inventory] :=
  ⟨hands.written hcatalog hwrite,
    hands.written hcatalog (Destination.resultOn_noting hwrite [])⟩

private theorem gives_unwritten (hands : HandsOver work catalog f) {e : WriteError}
    (hcatalog : catalog = .ok c) (hwrite : resultOn (d.write c.inventory) s = (.error e, u)) :
    Gives work d s (.error (.output e c), u) [c.inventory] :=
  ⟨hands.unwritten hcatalog hwrite,
    hands.unwritten hcatalog (Destination.resultOn_noting hwrite [])⟩

end HandsOver

end Works

/-! ## Reading -/

namespace SourceFile

theorem located_of_read {host : Host} {prefs : ReadPreferences} {t : FileTree} {path : String}
    {file : SourceFile} (h : outcome (read host prefs t path) = .ok file) :
    ∃ place content, t.resolve path = .ok place ∧ t.at? place = some (.file content) := by
  rw [outcome_read] at h
  obtain ⟨place, hlocate, -⟩ := bind_eq_ok h
  obtain ⟨hresolve, hfile⟩ := locate_ok hlocate
  rw [FileTree.isFile, FileTree.node_eq, hresolve] at hfile
  rcases hnode : t.at? place with _ | (content | _) <;> simp [Except.bind, hnode] at hfile
  exact ⟨place, content, hresolve, hnode⟩

end SourceFile

namespace Catalog

variable (host : Host) (prefs : Preferences) (tree : FileTree) (path : String)

/-! ## Writing and reporting -/

theorem handsOver_ofFileTo (id : Nat) :
    HandsOver (ofFileTo host prefs tree path id) (outcome (ofFile host prefs tree path id))
      fun c written => ({ c with inventory := .empty }, written) where
  refused hcatalog := by rw [resultOn_ofFileTo, hcatalog]
  written hcatalog hwrite := by simp only [resultOn_ofFileTo, hcatalog, hwrite]
  unwritten hcatalog hwrite := by simp only [resultOn_ofFileTo, hcatalog, hwrite]

theorem handsOver_reportTo :
    HandsOver (reportTo host prefs tree path) (outcome (ofFile host prefs tree path 0))
      fun c written => { c.report with output := some written } where
  refused hcatalog := by rw [reportTo, resultOn_bind, resultOn_lift, hcatalog]
  written hcatalog hwrite := by
    rw [reportTo, resultOn_bind, resultOn_lift, hcatalog]
    dsimp only
    rw [resultOn_bind, resultOn_store, hwrite]
    rfl
  unwritten hcatalog hwrite := by
    rw [reportTo, resultOn_bind, resultOn_lift, hcatalog]
    dsimp only
    rw [resultOn_bind, resultOn_store, hwrite]

/-! ## Texts and files -/

theorem ofSource_eq {limits : Limits} (prefs : ScanPreferences) {source : String}
    (fit : PositionsFit source.toList) :
    ofSource limits prefs source = .ok (ofOutcome (Scan.outcome limits prefs source) none) := by
  obtain ⟨last, hscan, ends⟩ := Scan.Cataloger.scan_ends { prefs } limits .empty fit
  rw [ofSource, hscan, ofOutcome, ← ends.inventory]
  rfl

/-- Under accepted limits, a file that is refused is refused by all three ways to a catalog, and
nothing is given to a destination. Otherwise its catalog is that of the text that its path leads
to, and each of the two ways to a destination gives it that inventory once. When it was written,
one returns the catalog without the inventory and the other reports its declarations in the order
of the source; files and memory say that they wrote all of them. When it could not be written, both
keep the catalog in their error. -/
theorem entry_points_agree (profile : String) (wf : tree.WellFormed)
    (valid : host.limits.validate profile = .ok ()) :
    (∀ e, outcome (SourceFile.read host prefs.reading tree path) = .error e →
      (∀ id, outcome (ofFile host prefs tree path id) = .error (.reading e)) ∧
      ∀ {σ : Type} (d : Destination σ) (s : σ),
        (∀ id, Gives (ofFileTo host prefs tree path id) d s (.error (.reading e), s) []) ∧
        Gives (reportTo host prefs tree path) d s (.error (.reading e), s) []) ∧
    (∀ file, outcome (SourceFile.read host prefs.reading tree path) = .ok file →
      tree.readText path = .ok file.text ∧
      ∃ o c, Scan.scan host.limits prefs.scanning file.text = .ok o ∧
        o.declarations.Pairwise (fun a b => a.span.start.offset < b.span.start.offset) ∧
        c.inventory = Inventory.empty.addAll o.declarations ∧
        ofSource host.limits prefs.scanning file.text = .ok ⟨c.inventory, c.metrics, none⟩ ∧
        (∀ id, outcome (ofFile host prefs tree path id) = .ok c) ∧
        ∀ {σ : Type} (d : Destination σ) (s u : σ),
          (∀ written, resultOn (d.write c.inventory) s = (.ok written, u) →
            (∀ id, Gives (ofFileTo host prefs tree path id) d s
              (.ok ({ c with inventory := .empty }, written), u) [c.inventory]) ∧
            Gives (reportTo host prefs tree path) d s
              (.ok ⟨some file.info.path, c.metrics, o.declarations, some written⟩, u)
              [c.inventory] ∧
            (d.Counts → written.records = c.metrics.declarations)) ∧
          (∀ e, resultOn (d.write c.inventory) s = (.error e, u) →
            (∀ id, Gives (ofFileTo host prefs tree path id) d s (.error (.output e c), u)
              [c.inventory]) ∧
            Gives (reportTo host prefs tree path) d s (.error (.output e c), u)
              [c.inventory])) ∧
    (∀ w : FileWriter, (w.destination host).Counts) ∧
    ∀ failing, (Memory.destination failing).Counts := by
  refine ⟨?_, ?_, fun w => Destination.counts_files w host, Destination.counts_memory⟩
  · intro e hread
    have hcatalog : ∀ id, outcome (ofFile host prefs tree path id) = .error (.reading e) := by
      intro id
      rw [outcome_ofFile, hread]
    exact ⟨hcatalog, fun d s =>
      ⟨fun id => (handsOver_ofFileTo host prefs tree path id).gives_nothing (hcatalog id),
        (handsOver_reportTo host prefs tree path).gives_nothing (hcatalog 0)⟩⟩
  · intro file hread
    obtain ⟨place, content, hresolve, hnode⟩ := SourceFile.located_of_read hread
    obtain ⟨htext, hsize⟩ := SourceFile.read_ok wf hresolve hnode hread
    have fit := Scan.positionsFit_of_validate valid hsize
    have tallied := Scan.tallied_outcome host.limits prefs.scanning file.text
    have hcatalog : ∀ id, outcome (ofFile host prefs tree path id) =
        .ok (ofOutcome (Scan.outcome host.limits prefs.scanning file.text) (some file.info)) := by
      intro id
      rw [outcome_ofFile, hread]
    refine ⟨htext, _, _, Scan.scan_of_fits _ _ fit, tallied.rising, rfl, ofSource_eq _ fit,
      hcatalog, ?_⟩
    intro σ d s u
    refine ⟨fun written hwrite => ⟨fun id => ?_, ?_, fun counts => ?_⟩,
      fun e hwrite => ⟨fun id => ?_, ?_⟩⟩
    · exact (handsOver_ofFileTo host prefs tree path id).gives_written (hcatalog id) hwrite
    · have reported :=
        (handsOver_reportTo host prefs tree path).gives_written (hcatalog 0) hwrite
      rw [report_ofOutcome tallied] at reported
      exact reported
    · rw [counts _ _ _ _ hwrite]
      exact size_inventory_ofOutcome tallied (some file.info)
    · exact (handsOver_ofFileTo host prefs tree path id).gives_unwritten (hcatalog id) hwrite
    · exact (handsOver_reportTo host prefs tree path).gives_unwritten (hcatalog 0) hwrite

theorem entry_points_agree_twoSources :
    Batch.twoSources.WellFormed ∧ ({} : Host).limits.validate "development" = .ok () ∧
    ∃ c written m, outcome (ofFile {} {} Batch.twoSources "d/a.c" 7) = .ok c ∧
      c.metrics.declarations = 1 ∧ written.records = 1 ∧
      Gives (ofFileTo {} {} Batch.twoSources "d/a.c" 7) (Memory.destination false) {}
        (.ok ({ c with inventory := .empty }, written), m) [c.inventory] := by
  have valid : ({} : Host).limits.validate "development" = .ok () := by decide
  have hread : (outcome (SourceFile.read {} {} Batch.twoSources "d/a.c")).map SourceFile.text =
      .ok "int x;\n" := by decide +kernel
  rcases hfile : outcome (SourceFile.read {} {} Batch.twoSources "d/a.c") with e | file <;>
    rw [hfile] at hread
  · cases hread
  obtain ⟨-, taken, -, counts⟩ := entry_points_agree {} {} Batch.twoSources "d/a.c" "development"
    Batch.wellFormed_twoSources valid
  obtain ⟨-, o, c, -, -, -, hsource, hcatalog, hdestination⟩ := taken file hfile
  obtain ⟨gives, -, hrecords⟩ := (hdestination (Memory.destination false) {} _).1 _ rfl
  have hmetrics : c.metrics.declarations = 1 := by
    have htext : file.text = "int x;\n" := Except.ok.inj hread
    rw [htext] at hsource
    have hcount : (ofSource ({} : Host).limits ({} : Preferences).scanning "int x;\n").map total =
        .ok 1 := by decide +kernel
    rw [hsource] at hcount
    exact Except.ok.inj hcount
  exact ⟨Batch.wellFormed_twoSources, valid, c, _, _, hcatalog 7, hmetrics,
    (hrecords (counts false)).trans hmetrics, gives 7⟩

end Catalog

end CInventory
