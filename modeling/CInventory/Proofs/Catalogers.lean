import Mathlib
import CInventory.Proofs.Segmentation
import CInventory.Scan.Cataloger

/-!
# Catalogers

What a cataloger finds in a source is what the segments of that source declare and count. It adds
the declarations behind those that its inventory held before. Its preferences decide only how
incomplete constructs are reported, and what it scanned before is forgotten when it starts.
-/

namespace CInventory.Scan

namespace Progress

variable (limits : Limits) (s : Progress)

/-! ## One segment -/

private theorem prefs_take (p : Placed) :
    (take limits s p).cataloger.prefs = s.cataloger.prefs := by
  unfold take
  split <;> rfl

private theorem metrics_take (p : Placed) :
    (take limits s p).cataloger.metrics = s.cataloger.metrics.count p.segment := by
  unfold take
  split <;> rfl

private theorem inventory_take (p : Placed) :
    (take limits s p).inventory = s.inventory.addAll p.declaration?.toList := by
  unfold take
  split
  · next d hd =>
      rw [hd]
      rfl
  · next found hd hfound =>
      rw [hd]
      rfl
  · next hd hfound =>
      rw [hd]
      rfl

private theorem segmentEvents_cons (p : Placed) (placed : List Placed) :
    segmentEvents limits s.cataloger.prefs s.events s.cataloger.warned (p :: placed) =
      segmentEvents limits s.cataloger.prefs (take limits s p).events
        (take limits s p).cataloger.warned placed := by
  obtain ⟨segment, span⟩ := p
  cases segment with
  | blockComment text closed => cases closed <;> rfl
  | _ => rfl

/-! ## All segments of a run -/

theorem prefs_foldl_take (placed : List Placed) :
    (placed.foldl (take limits) s).cataloger.prefs = s.cataloger.prefs := by
  induction placed generalizing s with
  | nil => rfl
  | cons p placed ih => rw [List.foldl_cons, ih, prefs_take]

theorem metrics_foldl_take (placed : List Placed) :
    (placed.foldl (take limits) s).cataloger.metrics =
      (placed.map Placed.segment).foldl Metrics.count s.cataloger.metrics := by
  induction placed generalizing s with
  | nil => rfl
  | cons p placed ih => rw [List.foldl_cons, ih, metrics_take, List.map_cons, List.foldl_cons]

theorem inventory_foldl_take (placed : List Placed) :
    (placed.foldl (take limits) s).inventory =
      s.inventory.addAll (placed.filterMap Placed.declaration?) := by
  induction placed generalizing s with
  | nil => rfl
  | cons p placed ih =>
      rw [List.foldl_cons, ih, inventory_take, List.filterMap_cons]
      cases p.declaration? <;> rfl

theorem events_foldl_take (placed : List Placed) :
    (placed.foldl (take limits) s).events =
      segmentEvents limits s.cataloger.prefs s.events s.cataloger.warned placed := by
  induction placed generalizing s with
  | nil => rfl
  | cons p placed ih => rw [List.foldl_cons, ih, prefs_take, segmentEvents_cons]

/-- A scan takes the segments that a run of the cursor places, one after the other. -/
theorem runFrom_eq (c : Cursor) (done : List Placed) :
    (done.reverse.foldl (take limits) s).runFrom limits c =
      (c.runFrom done).map fun run => run.1.foldl (take limits) s := by
  induction h : c.rest.length using Nat.strongRecOn generalizing c done with
  | ind n ih =>
      subst h
      by_cases hc : c.rest = []
      · rw [runFrom_of_end limits _ hc, Cursor.runFrom_of_end done hc]
        rfl
      · rw [runFrom_of_next limits _ hc, Cursor.runFrom_of_next done hc]
        rcases hnext : c.next with fault | ⟨found, after⟩
        · rfl
        · have hrest := ih _ (Cursor.length_rest_of_next hc hnext) after (found.toList ++ done) rfl
          refine Eq.trans ?_ hrest
          cases found with
          | none => rfl
          | some p =>
              rw [Option.toList_some, List.singleton_append, List.reverse_cons, List.foldl_append]
              rfl

end Progress

/-- A scan into `inv` that ended with what is known of the source as `o`. -/
structure Progress.Ends (last : Progress) (prefs : ScanPreferences) (inv : Inventory)
    (o : Outcome) : Prop where
  prefs : last.cataloger.prefs = prefs
  metrics : last.cataloger.metrics = o.metrics
  inventory : last.inventory = inv.addAll o.declarations
  events : last.events.toList = o.events

namespace Cataloger

variable (k : Cataloger) (limits : Limits) {source : String} (inv : Inventory)

/-- A cataloger comes to what a scan under its preferences finds, behind what the inventory held
before. -/
theorem scan_ends (fit : PositionsFit source.toList) :
    ∃ last, k.scan limits source inv = .ok ((outcome limits k.prefs source).metrics, last) ∧
      last.Ends k.prefs inv (outcome limits k.prefs source) := by
  let first : Progress := { cataloger := k.restart, inventory := inv }
  let placed := place .start (segments source.toList)
  let stop := placed.foldl (Progress.take limits) first
  have hrun : first.runFrom limits (.ofSource source) = .ok stop := by
    have hcursor := run_ofSource source
    rw [Position.advanceAll_of_fits fit] at hcursor
    exact (Progress.runFrom_eq limits first (.ofSource source) []).trans (by rw [hcursor]; rfl)
  have hmetrics : stop.cataloger.metrics = (outcome limits k.prefs source).metrics :=
    Progress.metrics_foldl_take limits first placed
  refine ⟨{ stop with events := stop.events ++
    (closingEvents limits stop.cataloger.metrics).toArray }, ?_, ?_⟩
  · rw [scan, hrun, ← hmetrics]
    rfl
  · constructor
    · exact Progress.prefs_foldl_take limits first placed
    · exact hmetrics
    · exact Progress.inventory_foldl_take limits first placed
    · have hevents : stop.events = segmentEvents limits k.prefs #[] 0 placed :=
        Progress.events_foldl_take limits first placed
      simp only [Array.toList_append, hevents, hmetrics]
      rfl

theorem scan_overflows (unfit : ¬ PositionsFit source.toList) :
    k.scan limits source inv = .error .overflow := by
  have hcursor := run_ofSource source
  rw [Position.advanceAll_of_not_fits (by decide) unfit] at hcursor
  have hrun := Progress.runFrom_eq limits { cataloger := k.restart, inventory := inv }
    (.ofSource source) []
  rw [hcursor] at hrun
  rw [scan]
  exact congrArg (· >>= _) hrun

end Cataloger

theorem texts_addAll (inv : Inventory) (ds : List Declaration) (k : Kind) :
    (inv.addAll ds).texts k = inv.texts k ++
      ((ds.map fun d => (d.kind, d.text)).filter (·.1 = k)).map Prod.snd := by
  rw [Inventory.texts, Inventory.ofKind_addAll, List.map_append, List.filter_map, List.map_map]
  rfl

/-- A run cuts its source into segments that obey their rules, in the only way there is, and
stops at the end. The scan finds the declaring segments, in order, and counts the segments of
each sort. A cataloger adds their texts behind those that its inventory held. All return unless a
position does not fit its width. -/
theorem scan_splits_source (limits : Limits) (prefs : ScanPreferences) (source : String) :
    ∃ parts : List Segment,
      parts.flatMap Segment.text = source.toList ∧
      Splits source.toList parts ∧
      (∀ others, Splits source.toList others → others = parts) ∧
      (PositionsFit source.toList → ∃ o,
        (Cursor.ofSource source).runFrom [] =
          .ok (place .start parts, ⟨source, [], Position.start.walk source.toList⟩) ∧
        scan limits prefs source = .ok o ∧
        o.declarations.map (fun d => (d.kind, d.text)) = parts.filterMap Segment.declared? ∧
        (∀ (k : Cataloger) (inv : Inventory), ∃ last,
          k.scan limits source inv = .ok (o.metrics, last) ∧
          last.inventory = inv.addAll o.declarations ∧
          ∀ kind, last.inventory.texts kind = inv.texts kind ++
            ((parts.filterMap Segment.declared?).filter (·.1 = kind)).map Prod.snd) ∧
        o.metrics = Metrics.tally parts) ∧
      (¬ PositionsFit source.toList → scan limits prefs source = .error .overflow ∧
        ∀ (k : Cataloger) (inv : Inventory), k.scan limits source inv = .error .overflow) := by
  refine ⟨segments source.toList, segments_flatten _, splits_segments _, ?_, ?_, ?_⟩
  · intro others split
    exact split.eq_segments
  · intro fit
    have hdeclared : (outcome limits prefs source).declarations.map (fun d => (d.kind, d.text)) =
        (segments source.toList).filterMap Segment.declared? := declarations_place .start _
    refine ⟨_, ?_, scan_of_fits limits prefs fit, hdeclared, ?_, metrics_outcome ..⟩
    · rw [run_ofSource, Position.advanceAll_of_fits fit]
      rfl
    · intro k inv
      obtain ⟨last, hscan, ends⟩ := k.scan_ends limits inv fit
      refine ⟨last, hscan, ends.inventory, ?_⟩
      intro kind
      rw [ends.inventory, texts_addAll]
      exact congrArg (fun found => inv.texts kind ++
        ((found.filter fun d => d.1 = kind).map Prod.snd)) hdeclared
  · intro unfit
    exact ⟨scan_of_not_fits limits prefs unfit, fun k inv => k.scan_overflows limits inv unfit⟩

example : segments "/*a*/ é const\u00a0int f()\x7b\x7d //".toList =
    [.blockComment "/*a*/".toList true, .blank [' '], .other 'é', .blank [' '],
      .declaration .constant "const\u00a0int f()\x7b\x7d //".toList] := by cbv

/-- Two catalogers that scan a source, with any preferences, whatever they scanned before and
whatever their inventories hold, add the same declarations and return the same metrics, which can
be read from them afterwards. Where a position does not fit its width, both fail. -/
theorem cataloger_forgets (limits : Limits) (source : String) (k₁ k₂ : Cataloger)
    (inv₁ inv₂ : Inventory) :
    (PositionsFit source.toList → ∃ o last₁ last₂,
      scan limits k₁.prefs source = .ok o ∧
      k₁.scan limits source inv₁ = .ok (o.metrics, last₁) ∧
      k₂.scan limits source inv₂ = .ok (o.metrics, last₂) ∧
      last₁.inventory = inv₁.addAll o.declarations ∧
      last₂.inventory = inv₂.addAll o.declarations ∧
      last₁.cataloger.metrics = o.metrics ∧
      last₂.cataloger.metrics = o.metrics) ∧
    (¬ PositionsFit source.toList →
      k₁.scan limits source inv₁ = .error .overflow ∧
      k₂.scan limits source inv₂ = .error .overflow) := by
  constructor
  · intro fit
    obtain ⟨last₁, hscan₁, ends₁⟩ := k₁.scan_ends limits inv₁ fit
    obtain ⟨last₂, hscan₂, ends₂⟩ := k₂.scan_ends limits inv₂ fit
    -- Preferences reach only the events of an outcome: the rest is the same for both.
    exact ⟨_, last₁, last₂, scan_of_fits limits k₁.prefs fit, hscan₁, hscan₂, ends₁.inventory,
      ends₂.inventory, ends₁.metrics, ends₂.metrics⟩
  · intro unfit
    exact ⟨k₁.scan_overflows limits inv₁ unfit, k₂.scan_overflows limits inv₂ unfit⟩

end CInventory.Scan
