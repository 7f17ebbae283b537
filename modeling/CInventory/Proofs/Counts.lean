import Mathlib
import CInventory.Proofs.CatalogJobs
import CInventory.Proofs.ReadBack
import CInventory.Proofs.SourceOrder

/-!
# Counts

A scan tallies its segments, and an inventory holds the declarations that are added to it. The
report counts by the tally, the manifest and the writers by the inventory. For an inventory that
holds one scan the two are the same number for each kind, and both documents list the same
declarations.
-/

namespace CInventory

open Diagnostic Output

/-! ## Two tallies -/

namespace Scan

theorem Metrics.ofKind_add (m n : Metrics) (k : Kind) :
    (m + n).ofKind k = m.ofKind k + n.ofKind k := by
  cases k <;> rfl

theorem Metrics.ofKind_tally_singleton (s : Segment) (k : Kind) :
    (tally [s]).ofKind k = (s.declared?.toList.filter (·.1 = k)).length := by
  cases s with
  | declaration kind text => cases kind <;> cases k <;> rfl
  | _ => cases k <;> rfl

theorem length_declared_ofKind (parts : List Segment) (k : Kind) :
    ((parts.filterMap Segment.declared?).filter (·.1 = k)).length =
      (Metrics.tally parts).ofKind k := by
  induction parts with
  | nil => cases k <;> rfl
  | cons s parts ih =>
      have hcons : Metrics.tally (s :: parts) = Metrics.tally [s] + Metrics.tally parts :=
        Metrics.tally_append [s] parts
      have hdeclared : (s :: parts).filterMap Segment.declared? =
          s.declared?.toList ++ parts.filterMap Segment.declared? := by
        rw [List.filterMap_cons]
        cases s.declared? <;> rfl
      rw [hcons, Metrics.ofKind_add, Metrics.ofKind_tally_singleton, hdeclared, List.filter_append,
        List.length_append, ih]

theorem length_declarations_ofKind (limits : Limits) (prefs : ScanPreferences) (source : String)
    (k : Kind) :
    ((outcome limits prefs source).declarations.filter (·.kind = k)).length =
      (outcome limits prefs source).metrics.ofKind k := by
  have hdeclared : (outcome limits prefs source).declarations.map (fun d => (d.kind, d.text)) =
      (segments source.toList).filterMap Segment.declared? := declarations_place .start _
  rw [metrics_outcome, ← length_declared_ofKind, ← hdeclared, List.filter_map, List.length_map]
  rfl

/-- An outcome whose metrics count its declarations, which stand one behind the other. -/
structure Outcome.Tallied (o : Outcome) : Prop where
  rising : o.declarations.Pairwise fun a b => a.span.start.offset < b.span.start.offset
  each : ∀ k, o.metrics.ofKind k = (o.declarations.filter (·.kind = k)).length
  total : o.metrics.declarations = o.declarations.length

theorem tallied_outcome (limits : Limits) (prefs : ScanPreferences) (source : String) :
    (outcome limits prefs source).Tallied where
  rising := (pairwise_declarations limits prefs source).imp fun h => h.start_lt
  each k := (length_declarations_ofKind limits prefs source k).symm
  total := (length_declarations limits prefs source).symm

end Scan

namespace Inventory

theorem count_addAll (inv : Inventory) (ds : List Declaration) (k : Kind) :
    (inv.addAll ds).count k = inv.count k + (ds.filter (·.kind = k)).length := by
  rw [count, ofKind_addAll, List.length_append, count]

theorem count_empty_addAll (ds : List Declaration) :
    (empty.addAll ds).count = fun k => (ds.filter (·.kind = k)).length := by
  funext k
  rw [count_addAll, count, ofKind_empty, List.length_nil, Nat.zero_add]

/-- An inventory holds what it held as `inv` and, behind that, what a scan found: for each kind as
many declarations more as the scan counts for it. -/
structure Extends (later inv : Inventory) (o : Scan.Outcome) : Prop where
  ofKind : ∀ k, later.ofKind k = inv.ofKind k ++ o.declarations.filter (·.kind = k)
  count : ∀ k, later.count k = inv.count k + o.metrics.ofKind k
  size : later.size = inv.size + o.metrics.declarations

theorem extends_addAll (inv : Inventory) {o : Scan.Outcome} (tallied : o.Tallied) :
    (inv.addAll o.declarations).Extends inv o where
  ofKind := ofKind_addAll inv o.declarations
  count k := by rw [count_addAll, tallied.each]
  size := by rw [size_addAll, tallied.total]

private theorem sum_counts (inv : Inventory) : (Kind.all.map inv.count).sum = inv.size := by
  simp [Kind.all, size]
  omega

end Inventory

/-! ## Documents -/

namespace Json

def member? (name : String) : Json → Option Json
  | .object members => members.lookup name
  | _ => none

def countOf? (document : Json) (k : Kind) : Option Json :=
  (document.member? "counts").bind (member? k.collection)

structure Accounts (document : Json) (count : Kind → Nat) (listed : List Declaration) : Prop where
  counts : ∀ k, document.countOf? k = some (.nat (count k))
  records : document.member? "records" = some (.array (listed.map Declaration.toJson))
  each : ∀ k, count k = (listed.filter (·.kind = k)).length
  total : (Kind.all.map count).sum = listed.length

private theorem member?_countsJson (count : Kind → Nat) (k : Kind) :
    (countsJson count).member? k.collection = some (.nat (count k)) := by
  cases k <;> rfl

private theorem accounts_of_members {document : Json} {count : Kind → Nat}
    {listed : List Declaration} (hcounts : document.member? "counts" = some (countsJson count))
    (hrecords : document.member? "records" = some (.array (listed.map Declaration.toJson)))
    (each : ∀ k, count k = (listed.filter (·.kind = k)).length) :
    document.Accounts count listed where
  counts k := by
    rw [countOf?, hcounts, Option.bind_some, member?_countsJson]
  records := hrecords
  each := each
  total := by
    have hcount : count = (Inventory.empty.addAll listed).count := by
      rw [Inventory.count_empty_addAll]
      exact funext each
    rw [hcount, Inventory.sum_counts, Inventory.size_addAll]
    exact Nat.zero_add _

end Json

theorem Catalog.Report.accounts (r : Report) (host : Host)
    (each : ∀ k, r.metrics.ofKind k = (r.declarations.filter (·.kind = k)).length) :
    (r.toJson host).Accounts r.metrics.ofKind r.declarations := by
  obtain ⟨path, metrics, declarations, output⟩ := r
  cases path <;> exact Json.accounts_of_members rfl rfl each

private theorem member?_records_manifest (timestamp : String) (source : Option String)
    (inv : Inventory) :
    (manifest timestamp source inv).member? "records" =
      some (.array (inv.inSourceOrder.map Declaration.toJson)) := by
  cases source <;> rfl

theorem accounts_manifest (timestamp : String) (source : Option String) {ds : List Declaration}
    (rising : ds.Pairwise fun a b => a.span.start.offset < b.span.start.offset) :
    (manifest timestamp source (.addAll .empty ds)).Accounts (Inventory.addAll .empty ds).count
      ds := by
  have hrecords := member?_records_manifest timestamp source (.addAll .empty ds)
  rw [Inventory.inSourceOrder_addAll rising] at hrecords
  refine Json.accounts_of_members ?_ hrecords (congrFun (Inventory.count_empty_addAll ds))
  cases source <;> rfl

/-! ## Writers -/

namespace Output

namespace FileWriter

variable {w : FileWriter} {host : Host} {inv : Inventory} {t u : FileTree} {written : Written}

/-- A writer that succeeds has written all its files and reports them, and the manifest can be
read back. -/
theorem write_ok (h : resultOn (w.write host inv) t = (.ok written, u)) :
    written = w.written host inv ∧
      (w.format = .json → u.readText w.manifestFile = .ok (w.manifestText host inv)) := by
  obtain ⟨made, -, hfiles, hwritten⟩ := writeParcels_of_write h
  refine ⟨hwritten, fun hformat => ?_⟩
  obtain ⟨place, hread, -⟩ := FileTree.writeParcels_ok (boundFor_parcels w host inv)
    (nodup_names_parcels w host inv) hfiles
  have hmanifest : ⟨w.manifestFile, manifestName, (w.manifestText host inv).toUTF8⟩ ∈
      w.parcels host inv := by
    rw [parcels, manifestParcels, hformat]
    exact List.mem_append_right _ List.mem_cons_self
  exact FileTree.readText_of_readBytes (hread _ hmanifest).1

theorem records_written (w : FileWriter) (host : Host) (inv : Inventory) :
    (w.written host inv).records = inv.size := by
  have hkinds : (Kind.all.foldl (w.addKind inv) { destination := w.directory }).records =
      inv.size := by
    simp [Kind.all, addKind, Inventory.size]
  rw [written, addManifest, ← hkinds]
  split <;> rfl

end FileWriter

theorem Memory.write_ok {failing : Bool} {inv : Inventory} {m m' : Memory} {written : Written}
    (h : resultOn (write failing inv) m = (.ok written, m')) : written.records = inv.size := by
  cases failing <;> cases h
  rfl

end Output

/-! ## Reports -/

namespace Catalog

/-- A report is that of the file's catalog and says what was written of it. -/
theorem reportTo_ok {σ : Type} {host : Host} {prefs : Preferences} {tree : FileTree}
    {path : String} {d : Destination σ} {s u : σ} {r : Report}
    (h : resultOn (reportTo host prefs tree path d) s = (.ok r, u)) :
    ∃ c written, outcome (ofFile host prefs tree path 0) = .ok c ∧
      resultOn (d.write c.inventory) s = (.ok written, u) ∧
      r = { c.report with output := some written } := by
  obtain ⟨c, s', hfile, h⟩ := resultOn_bind_ok h
  rw [resultOn_lift] at hfile
  obtain ⟨hcatalog, rfl⟩ := Prod.mk.inj hfile
  obtain ⟨stored, u', hstore, h⟩ := resultOn_bind_ok h
  rw [resultOn_store] at hstore
  rcases hwrite : resultOn (d.write c.inventory) s with ⟨e | written, v⟩ <;> rw [hwrite] at hstore
  · cases hstore
  · cases hstore
    cases h
    exact ⟨c, written, hcatalog, hwrite, rfl⟩

/-- A report that counts and lists what a scan found and says that all of it was written. -/
structure Report.Tells (r : Report) (host : Host) (o : Scan.Outcome) : Prop where
  accounts : (r.toJson host).Accounts o.metrics.ofKind o.declarations
  output : ∃ written, r.output = some written ∧ written.records = o.metrics.declarations
  written : ((r.toJson host).member? "output").bind (Json.member? "records_written") =
    some (.nat o.metrics.declarations)

section Outcomes

variable {o : Scan.Outcome}

theorem report_ofOutcome (tallied : o.Tallied) (info : Option FileInfo) :
    (ofOutcome o info).report = ⟨info.map FileInfo.path, o.metrics, o.declarations, none⟩ := by
  rw [report, ofOutcome, Inventory.inSourceOrder_addAll tallied.rising]

theorem ofKind_metrics (tallied : o.Tallied) :
    o.metrics.ofKind = (Inventory.empty.addAll o.declarations).count := by
  rw [Inventory.count_empty_addAll]
  exact funext tallied.each

theorem size_inventory_ofOutcome (tallied : o.Tallied) (info : Option FileInfo) :
    (ofOutcome o info).inventory.size = o.metrics.declarations := by
  rw [tallied.total, ofOutcome, Inventory.size_addAll]
  exact Nat.zero_add _

/-- What is reported of a file whose text was read tells what the scan of that text found, if as
many records were written as the catalog's inventory holds. -/
theorem tells_reportTo {host : Host} {prefs : Preferences} {σ : Type} {tree : FileTree}
    {path : String} {file : SourceFile} {d : Destination σ} {s u : σ} {r : Report}
    (ho : o = Scan.outcome host.limits prefs.scanning file.text)
    (hread : outcome (SourceFile.read host prefs.reading tree path) = .ok file)
    (hrecords : ∀ inv written, resultOn (d.write inv) s = (.ok written, u) →
      written.records = inv.size)
    (h : resultOn (reportTo host prefs tree path d) s = (.ok r, u)) :
    r.Tells host o ∧ ∃ written,
      resultOn (d.write (ofOutcome o (some file.info)).inventory) s = (.ok written, u) := by
  have tallied : o.Tallied := ho ▸ Scan.tallied_outcome ..
  obtain ⟨c, written, hcatalog, hwrite, rfl⟩ := reportTo_ok h
  rw [outcome_ofFile, hread] at hcatalog
  dsimp only at hcatalog
  rw [← ho] at hcatalog
  obtain rfl := Except.ok.inj hcatalog
  have hsize := (hrecords _ _ hwrite).trans (size_inventory_ofOutcome tallied (some file.info))
  rw [report_ofOutcome tallied]
  refine ⟨⟨Report.accounts _ host tallied.each, ⟨written, rfl, hsize⟩, ?_⟩, written, hwrite⟩
  rw [← hsize]
  rfl

end Outcomes

/-- Whatever a cataloger has scanned before and whatever its inventory holds, a scan leaves each
collection with what was there and, behind that, as many declarations as its metrics count for the
kind. The report on a fresh inventory, its manifest and what its writers say they wrote then agree
on every count; the counts add up to the declarations listed, which report and manifest list
alike. -/
theorem counts_agree (host : Host) (prefs : Preferences) (source : String) :
    ∃ o : Scan.Outcome,
      o = Scan.outcome host.limits prefs.scanning source ∧
      (PositionsFit source.toList → Scan.scan host.limits prefs.scanning source = .ok o) ∧
      (¬ PositionsFit source.toList →
        Scan.scan host.limits prefs.scanning source = .error .overflow) ∧
      (∀ (c : Scan.Cataloger) (inv : Inventory),
        (PositionsFit source.toList → ∃ last,
          c.scan host.limits source inv = .ok (o.metrics, last) ∧
          last.inventory.Extends inv o) ∧
        (¬ PositionsFit source.toList → c.scan host.limits source inv = .error .overflow)) ∧
      (∀ info timestamp origin,
        ((ofOutcome o info).report.toJson host).Accounts o.metrics.ofKind o.declarations ∧
        (manifest timestamp origin (ofOutcome o info).inventory).Accounts o.metrics.ofKind
          o.declarations) ∧
      (∀ tree path info,
        outcome (SourceFile.read host prefs.reading tree path) = .ok ⟨source, info⟩ →
        (∀ (w : FileWriter) t u r,
          resultOn (reportTo host prefs tree path (w.destination host)) t = (.ok r, u) →
          r.Tells host o ∧
          (w.format = .json → u.readText w.manifestFile =
            .ok (manifest host.clock.timestamp w.source
              (ofOutcome o (some info)).inventory).pretty)) ∧
        (∀ failing m m' r,
          resultOn (reportTo host prefs tree path (Memory.destination failing)) m = (.ok r, m') →
          r.Tells host o)) := by
  have tallied := Scan.tallied_outcome host.limits prefs.scanning source
  refine ⟨_, rfl, Scan.scan_of_fits _ _, Scan.scan_of_not_fits _ _, ?_, ?_, ?_⟩
  · intro c inv
    refine ⟨fun fit => ?_, c.scan_overflows host.limits inv⟩
    obtain ⟨last, hscan, ends⟩ := c.scan_ends host.limits inv fit
    refine ⟨last, hscan, ?_⟩
    rw [ends.inventory]
    exact Inventory.extends_addAll inv tallied
  · intro info timestamp origin
    have hmanifest := accounts_manifest timestamp origin tallied.rising
    rw [← ofKind_metrics tallied] at hmanifest
    rw [report_ofOutcome tallied]
    exact ⟨Report.accounts _ host tallied.each, hmanifest⟩
  · intro tree path info hread
    constructor
    · intro w t u r h
      have hrecords : ∀ inv written,
          resultOn ((w.destination host).write inv) t = (.ok written, u) →
          written.records = inv.size := by
        intro inv written hwrite
        rw [(FileWriter.write_ok hwrite).1, FileWriter.records_written]
      obtain ⟨tells, written, hwrite⟩ := tells_reportTo rfl hread hrecords h
      exact ⟨tells, (FileWriter.write_ok hwrite).2⟩
    · intro failing m m' r h
      exact (tells_reportTo rfl hread (fun _ _ => Memory.write_ok) h).1

end Catalog

end CInventory
