import Mathlib
import CInventory.Proofs.Catalogers
import CInventory.Proofs.Clearings
import CInventory.Proofs.SourceOrder

/-!
# Inventories that are filled in any order

Declarations are added to an inventory one by one or by scans, from any sources, and all of them
are dropped when it is cleared. Whatever the calls were, each collection holds what they added of
its kind since the last clearing. Scans of several sources give offsets that repeat, so the merged
order is settled for equal offsets as well: by kind, then as added.
-/

namespace CInventory.Inventory

open Scan

/-! ## Calls -/

inductive Act where
  | append (d : Declaration)
  /-- Scan a source into the inventory, with any cataloger. -/
  | scan (k : Cataloger) (source : String)
  | clear

namespace Act

def apply (limits : Limits) (inv : Inventory) : Act → Except Fault Inventory
  | .append d => .ok (inv.add d)
  | .scan k source => (k.scan limits source inv).map fun scanned => scanned.2.inventory
  | .clear => .ok inv.clear

def isClear : Act → Bool
  | .clear => true
  | _ => false

/-- What a call adds: of a source, the declarations that a scan of it alone finds. -/
def adds (limits : Limits) : Act → List Declaration
  | .append d => [d]
  | .scan k source => (Scan.scan limits k.prefs source).toOption.elim [] Outcome.declarations
  | .clear => []

def Fits : Act → Prop
  | .scan _ source => PositionsFit source.toList
  | _ => True

end Act

def after (limits : Limits) (acts : List Act) : Except Fault Inventory :=
  acts.foldlM (Act.apply limits) empty

/-- The declarations added since the last clearing, in order. -/
def added (limits : Limits) (acts : List Act) : List Declaration :=
  (sinceClearing Act.isClear acts).flatMap (Act.adds limits)

theorem addAll_append (inv : Inventory) (xs ys : List Declaration) :
    inv.addAll (xs ++ ys) = (inv.addAll xs).addAll ys := List.foldl_append

/-! ## One call, and all of them -/

/-- What a call makes of an inventory when it does not fail. -/
def Act.effect (limits : Limits) (inv : Inventory) (a : Act) : Inventory :=
  if a.isClear then empty else inv.addAll (a.adds limits)

theorem Act.apply_of_fits (limits : Limits) (inv : Inventory) {a : Act} (fit : a.Fits) :
    a.apply limits inv = .ok (a.effect limits inv) := by
  cases a with
  | append d => rfl
  | scan k source =>
      obtain ⟨last, hscan, ends⟩ := k.scan_ends limits inv fit
      have hadds : (Act.scan k source).adds limits =
          (Scan.outcome limits k.prefs source).declarations := by
        rw [adds, scan_of_fits limits k.prefs fit]
        rfl
      rw [apply, hscan, effect, hadds]
      exact congrArg Except.ok ends.inventory
  | clear => exact congrArg Except.ok inv.clear_eq

theorem Act.apply_of_not_fits (limits : Limits) (inv : Inventory) {a : Act} (unfit : ¬ a.Fits) :
    a.apply limits inv = .error .overflow := by
  cases a with
  | append d => exact absurd trivial unfit
  | scan k source =>
      rw [apply, k.scan_overflows limits inv unfit]
      rfl
  | clear => exact absurd trivial unfit

theorem foldlM_apply_of_fits (limits : Limits) (inv : Inventory) {acts : List Act}
    (fit : ∀ a ∈ acts, a.Fits) :
    acts.foldlM (Act.apply limits) inv = .ok (acts.foldl (Act.effect limits) inv) := by
  induction acts generalizing inv with
  | nil => rfl
  | cons a acts ih =>
      rw [List.forall_mem_cons] at fit
      rw [List.foldlM_cons, a.apply_of_fits limits inv fit.1]
      exact ih _ fit.2

/-- The first source whose positions do not fit ends the calls. -/
theorem foldlM_apply_of_not_fits (limits : Limits) (inv : Inventory) {acts : List Act}
    (unfit : ∃ a ∈ acts, ¬ a.Fits) :
    acts.foldlM (Act.apply limits) inv = .error .overflow := by
  induction acts generalizing inv with
  | nil => simp at unfit
  | cons a acts ih =>
      rw [List.foldlM_cons]
      by_cases ha : a.Fits
      · rw [a.apply_of_fits limits inv ha]
        exact ih _ (by simpa [ha] using unfit)
      · rw [a.apply_of_not_fits limits inv ha]
        rfl

/-- An inventory has what was added since the last clearing, as if it had been added at once. -/
theorem after_of_fits (limits : Limits) {acts : List Act} (fit : ∀ a ∈ acts, a.Fits) :
    after limits acts = .ok (empty.addAll (added limits acts)) := by
  rw [after, foldlM_apply_of_fits limits empty fit]
  refine congrArg Except.ok (foldl_accounted
    (fun since inv => inv = empty.addAll (since.flatMap (Act.adds limits))) rfl ?_ ?_ acts)
  · intro inv a hclear
    rw [Act.effect, if_pos hclear]
    rfl
  · intro since inv a hclear h
    rw [Act.effect, hclear, if_neg Bool.false_ne_true, h, ← addAll_append, List.flatMap_append,
      List.flatMap_singleton]

/-! ## Equal offsets -/

/-- A stable sort by start offset keeps the order of the declarations that start at one offset. -/
theorem filter_mergeSort_offset (ds : List Declaration) (offset : Nat) :
    (ds.mergeSort fun a b => a.span.start.offset ≤ b.span.start.offset).filter
      (·.span.start.offset = offset) = ds.filter (·.span.start.offset = offset) := by
  have htied : (ds.filter (·.span.start.offset = offset)).Pairwise fun a b =>
      decide (a.span.start.offset ≤ b.span.start.offset) = true := by
    apply List.pairwise_of_forall_mem_list
    intro a ha b hb
    simp only [List.mem_filter, decide_eq_true_eq] at ha hb ⊢
    omega
  -- What is in order already stays a sublist; the same declarations are left over for it.
  have hkept := List.sublist_mergeSort offset_le_trans offset_le_total htied List.filter_sublist
  have hfiltered := hkept.filter (·.span.start.offset = offset)
  simp only [List.filter_filter, Bool.and_self] at hfiltered
  have hlength := ((List.mergeSort_perm ds fun a b =>
    a.span.start.offset ≤ b.span.start.offset).filter (·.span.start.offset = offset)).length_eq
  exact (hfiltered.eq_of_length hlength.symm).symm

/-! ## What an inventory holds -/

/-- The inventory holds `ds`, which were added in this order. -/
structure Holds (inv : Inventory) (ds : List Declaration) : Prop where
  ofKind : ∀ kind, inv.ofKind kind = ds.filter (·.kind = kind)
  size : inv.size = inv.count .constant + inv.count .variable + inv.count .function
  length : inv.size = ds.length
  perm : inv.inSourceOrder.Perm ds
  sorted : inv.inSourceOrder.Pairwise fun a b => a.span.start.offset ≤ b.span.start.offset
  /-- At one offset the constants come first, then the variables and the functions, each as
  added. -/
  ties : ∀ offset, inv.inSourceOrder.filter (·.span.start.offset = offset) =
    Kind.all.flatMap fun kind =>
      (ds.filter (·.kind = kind)).filter (·.span.start.offset = offset)

theorem holds_addAll (ds : List Declaration) : (empty.addAll ds).Holds ds where
  ofKind kind := by rw [ofKind_addAll, ofKind_empty, List.nil_append]
  size := rfl
  length := by
    rw [size_addAll]
    exact Nat.zero_add _
  perm := inSourceOrder_addAll_perm ds
  sorted := pairwise_inSourceOrder _
  ties offset := by
    rw [inSourceOrder, filter_mergeSort_offset]
    simp [ofKind_addAll, Kind.all]

/-- After any calls on an empty inventory, it holds what was added since the last clearing, all of
it and in order; the calls fail only where a source is scanned whose positions do not fit. -/
theorem after_holds_added (limits : Limits) (acts : List Act) :
    ((∀ a ∈ acts, a.Fits) →
      ∃ inv, after limits acts = .ok inv ∧ inv.Holds (added limits acts)) ∧
    ((∃ a ∈ acts, ¬ a.Fits) → after limits acts = .error .overflow) := by
  constructor
  · intro fit
    exact ⟨_, after_of_fits limits fit, holds_addAll (added limits acts)⟩
  · exact foldlM_apply_of_not_fits limits empty

/-- A constant and a function that start where a variable does, which another scan put in first. -/
def equalOffsets : List Act :=
  [.append ⟨.function, "dropped", .point .start⟩, .clear, .scan {} "int a;", .scan {} "const b",
    .append ⟨.function, "f", .point .start⟩]

private theorem equalOffsets_fit : ∀ a ∈ equalOffsets, a.Fits := by
  have hvariable : PositionsFit "int a;".toList := Position.positionsFit_of_byteLength (by decide)
  have hconstant : PositionsFit "const b".toList := Position.positionsFit_of_byteLength (by decide)
  simp only [equalOffsets, List.forall_mem_cons, Act.Fits, hvariable, hconstant, true_and]
  simp

private theorem added_equalOffsets :
    added .development equalOffsets =
      [⟨.variable, "int a;", ⟨⟨0, 1, 1⟩, ⟨6, 1, 7⟩⟩⟩,
        ⟨.constant, "const b", ⟨⟨0, 1, 1⟩, ⟨7, 1, 8⟩⟩⟩, ⟨.function, "f", .point .start⟩] := by
  have hsince : sinceClearing Act.isClear equalOffsets =
      [.scan {} "int a;", .scan {} "const b", .append ⟨.function, "f", .point .start⟩] := rfl
  have hvariable := equalOffsets_fit (.scan {} "int a;") (by simp [equalOffsets])
  have hconstant := equalOffsets_fit (.scan {} "const b") (by simp [equalOffsets])
  rw [added, hsince]
  simp only [List.flatMap_cons, Act.adds, scan_of_fits _ _ hvariable, scan_of_fits _ _ hconstant]
  cbv

/-- At one offset the constant comes first, though it was added later. -/
theorem after_holds_added_equalOffsets :
    (∀ a ∈ equalOffsets, a.Fits) ∧
    ∃ inv, after .development equalOffsets = .ok inv ∧ inv.size = 3 ∧
      (inv.inSourceOrder.filter (·.span.start.offset = 0)).map Declaration.text =
        ["const b", "int a;", "f"] := by
  obtain ⟨inv, hafter, holds⟩ := (after_holds_added .development equalOffsets).1 equalOffsets_fit
  refine ⟨equalOffsets_fit, inv, hafter, ?_, ?_⟩
  · rw [holds.length, added_equalOffsets]
    rfl
  · rw [holds.ties, added_equalOffsets]
    decide

end CInventory.Inventory
