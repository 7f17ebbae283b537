import Mathlib
import CInventory.Proofs.Catalogers

/-!
# Declarations in source order

A scan places its segments one behind the other, so each declaration ends before the next one
starts. An inventory deals them out to three collections; because their start offsets rise, sorting
by start offset puts them back in the order in which the scan found them.
-/

namespace CInventory

def Declaration.Covers (d : Declaration) (byte : Nat) : Prop :=
  d.span.start.offset ≤ byte ∧ byte < d.span.stop.offset

/-- One declaration stands in front of another: it starts and ends there, on no later line, and no
byte belongs to both. -/
structure Declaration.Precedes (a b : Declaration) : Prop where
  start_lt : a.span.start.offset < b.span.start.offset
  stop_le : a.span.stop.offset ≤ b.span.start.offset
  line_le : a.line ≤ b.line
  apart : ∀ byte, ¬ (a.Covers byte ∧ b.Covers byte)

theorem Declaration.precedes_of_stop_le {a b : Declaration}
    (some_text : a.span.start.offset < a.span.stop.offset)
    (stop_le : a.span.stop.offset ≤ b.span.start.offset) (line_le : a.line ≤ b.line) :
    a.Precedes b := by
  refine ⟨Nat.lt_of_lt_of_le some_text stop_le, stop_le, line_le, ?_⟩
  intro byte h
  obtain ⟨ha, hb⟩ := h
  unfold Declaration.Covers at ha hb
  omega

/-! ## Placed segments -/

namespace Scan

theorem start_of_mem_place {p : Position} {parts : List Segment} {placed : Placed}
    (h : placed ∈ place p parts) :
    p.offset ≤ placed.span.start.offset ∧ p.line ≤ placed.span.start.line := by
  obtain ⟨before, after, -, hspan⟩ := mem_place h
  have hoffset := p.walk_offset (before.flatMap Segment.text)
  have hline := p.walk_line (before.flatMap Segment.text)
  rw [hspan]
  dsimp only
  omega

private theorem pairwise_place (p : Position) (parts : List Segment) :
    (place p parts).Pairwise fun a b =>
      a.span.stop.offset ≤ b.span.start.offset ∧ a.span.start.line ≤ b.span.start.line := by
  -- The first segment ends where the others are placed from.
  induction parts generalizing p with
  | nil => exact .nil
  | cons s parts ih =>
      rw [place_cons]
      refine .cons ?_ (ih (p.walk s.text))
      intro later hlater
      have hstart := start_of_mem_place hlater
      have hline := p.walk_line s.text
      dsimp only
      omega

theorem declaration?_eq_some {placed : Placed} {d : Declaration}
    (h : placed.declaration? = some d) : d.span = placed.span := by
  obtain ⟨s, span⟩ := placed
  cases s with
  | declaration kind text =>
      cases h
      rfl
  | _ => cases h

theorem span_of_mem_declarations {limits : Limits} {prefs : ScanPreferences} {source : String}
    {d : Declaration} (h : d ∈ (outcome limits prefs source).declarations) :
    d.span.start.offset < d.span.stop.offset := by
  obtain ⟨before, after, -, hspan, stands⟩ := mem_declarations h
  have hstart := Position.start.walk_offset (before.flatMap Segment.text)
  have hstop := Position.start.walk_offset (before.flatMap Segment.text ++ d.text.toList)
  have hpos : 0 < Text.byteLength d.text.toList :=
    Nat.lt_of_lt_of_le (List.length_pos_iff.mpr stands.text_ne_nil)
      (Text.length_le_byteLength d.text.toList)
  rw [Text.byteLength_append] at hstop
  rw [hspan]
  dsimp only
  omega

theorem pairwise_declarations (limits : Limits) (prefs : ScanPreferences) (source : String) :
    (outcome limits prefs source).declarations.Pairwise Declaration.Precedes := by
  have hplaced : (outcome limits prefs source).declarations.Pairwise fun a b =>
      a.span.stop.offset ≤ b.span.start.offset ∧ a.line ≤ b.line := by
    change ((place .start (segments source.toList)).filterMap Placed.declaration?).Pairwise _
    rw [List.pairwise_filterMap]
    apply (pairwise_place .start (segments source.toList)).imp
    intro a b hab d hd e he
    rw [Declaration.line, Declaration.line, declaration?_eq_some hd, declaration?_eq_some he]
    exact hab
  apply hplaced.imp_of_mem
  intro a b ha _ hab
  exact Declaration.precedes_of_stop_le (span_of_mem_declarations ha) hab.1 hab.2

end Scan

/-! ## Collections and their order -/

namespace Inventory

private theorem filter_kinds_perm (ds : List Declaration) :
    (ds.filter (·.kind = .constant) ++ ds.filter (·.kind = .variable) ++
      ds.filter (·.kind = .function)).Perm ds := by
  induction ds with
  | nil => exact .nil
  | cons d ds ih =>
      rcases hkind : d.kind with _ | _ | _
      · simpa [hkind] using ih
      · have hmoved : (d :: (ds.filter (·.kind = .constant) ++ ds.filter (·.kind = .variable) ++
            ds.filter (·.kind = .function))).Perm (d :: ds) := ih.cons d
        simp only [List.append_assoc] at hmoved
        simpa [hkind] using List.perm_middle.trans hmoved
      · simpa [hkind] using List.perm_middle.trans (ih.cons d)

theorem inSourceOrder_perm (inv : Inventory) :
    inv.inSourceOrder.Perm
      (inv.ofKind .constant ++ inv.ofKind .variable ++ inv.ofKind .function) :=
  List.mergeSort_perm _ _

theorem offset_le_trans (a b c : Declaration)
    (hab : decide (a.span.start.offset ≤ b.span.start.offset) = true)
    (hbc : decide (b.span.start.offset ≤ c.span.start.offset) = true) :
    decide (a.span.start.offset ≤ c.span.start.offset) = true := by
  simp only [decide_eq_true_eq] at hab hbc ⊢
  exact Nat.le_trans hab hbc

theorem offset_le_total (a b : Declaration) :
    (decide (a.span.start.offset ≤ b.span.start.offset) ||
      decide (b.span.start.offset ≤ a.span.start.offset)) = true := by
  simp only [Bool.or_eq_true, decide_eq_true_eq]
  exact Nat.le_total _ _

theorem pairwise_inSourceOrder (inv : Inventory) :
    inv.inSourceOrder.Pairwise fun a b => a.span.start.offset ≤ b.span.start.offset := by
  refine (List.pairwise_mergeSort offset_le_trans offset_le_total _).imp ?_
  intro a b hab
  exact of_decide_eq_true hab

theorem inSourceOrder_addAll_perm (ds : List Declaration) :
    (empty.addAll ds).inSourceOrder.Perm ds := by
  have hmerged := (empty.addAll ds).inSourceOrder_perm
  simp only [ofKind_addAll, ofKind_empty, List.nil_append] at hmerged
  exact hmerged.trans (filter_kinds_perm ds)

/-- Declarations with rising start offsets come back in the order in which they were added. -/
theorem inSourceOrder_addAll {ds : List Declaration}
    (rising : ds.Pairwise fun a b => a.span.start.offset < b.span.start.offset) :
    (empty.addAll ds).inSourceOrder = ds := by
  have hperm := inSourceOrder_addAll_perm ds
  have hnodup : (ds.map fun d => d.span.start.offset).Nodup :=
    (List.pairwise_map.mpr rising).imp Nat.ne_of_lt
  -- Rising offsets tell the declarations apart, so there is one sorted arrangement only.
  refine hperm.eq_of_pairwise ?_ (pairwise_inSourceOrder _) (rising.imp Nat.le_of_lt)
  intro a b ha hb hab hba
  exact List.inj_on_of_nodup_map hnodup (hperm.mem_iff.mp ha) hb (Nat.le_antisymm hab hba)

end Inventory

namespace Scan

/-- The declarations of a scan follow one another in the source without sharing a byte. Each
collection of a fresh inventory lists those of its kind in the order found, and merging the
collections by start offset gives the order found. A cataloger leaves such an inventory. -/
theorem declarations_inSourceOrder (limits : Limits) (prefs : ScanPreferences) (source : String) :
    ∃ o : Outcome,
      o = outcome limits prefs source ∧
      (PositionsFit source.toList → scan limits prefs source = .ok o) ∧
      (¬ PositionsFit source.toList → scan limits prefs source = .error .overflow) ∧
      o.declarations.Pairwise Declaration.Precedes ∧
      (∀ k, (Inventory.empty.addAll o.declarations).ofKind k =
        o.declarations.filter (·.kind = k)) ∧
      (Inventory.empty.addAll o.declarations).inSourceOrder = o.declarations ∧
      (PositionsFit source.toList → ∀ c : Cataloger, ∃ last,
        c.scan limits source .empty = .ok (o.metrics, last) ∧
        last.inventory = .addAll .empty o.declarations ∧
        (∀ k, last.inventory.ofKind k = o.declarations.filter (·.kind = k)) ∧
        last.inventory.inSourceOrder = o.declarations) := by
  have hordered := pairwise_declarations limits prefs source
  have hkinds : ∀ k, (Inventory.empty.addAll (outcome limits prefs source).declarations).ofKind k =
      (outcome limits prefs source).declarations.filter (·.kind = k) := by
    intro k
    rw [Inventory.ofKind_addAll, Inventory.ofKind_empty, List.nil_append]
  have hmerged := Inventory.inSourceOrder_addAll (hordered.imp fun h => h.start_lt)
  refine ⟨_, rfl, scan_of_fits limits prefs, scan_of_not_fits limits prefs, hordered, hkinds,
    hmerged, ?_⟩
  intro fit c
  obtain ⟨last, hscan, ends⟩ := c.scan_ends limits .empty fit
  have hleft : last.inventory = .addAll .empty (outcome limits prefs source).declarations :=
    ends.inventory
  refine ⟨last, hscan, hleft, ?_⟩
  rw [hleft]
  exact ⟨hkinds, hmerged⟩

end Scan

end CInventory
