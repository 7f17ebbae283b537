import Mathlib
import CInventory.Proofs.Accounting

/-!
# Verdicts on files

A summary calls a file failed for the errors that were kept of it. Which events are kept is
decided by the calls alone: an event is kept if, when it was recorded, its file had not used up
its own limit and the files together, each counted up to that limit, had not used up the buffer.
An error that comes later is overlooked, and its file may pass as successful.
-/

namespace CInventory.Diagnostic.Collector

/-! ## Room, by the calls -/

/-- The number of events that the limit for one file leaves of those recorded. -/
def allotted (limits : Limits) (acts : List Act) : Nat :=
  ∑ key ∈ named acts, min (recorded key acts).length limits.maxEventsPerFile

def Roomy (limits : Limits) (acts : List Act) (key : List Path.Component) : Prop :=
  (recorded key acts).length < limits.maxEventsPerFile ∧
    allotted limits acts < limits.logBufferSize

def Admitted (limits : Limits) (acts : List Act) (key : List Path.Component) (e : Event) : Prop :=
  ∃ front path back, acts = front ++ .record path e :: back ∧ Path.components path = key ∧
    Roomy limits front key

theorem mem_recorded {key : List Path.Component} {acts : List Act} {e : Event} :
    e ∈ recorded key acts ↔ ∃ path, .record path e ∈ acts ∧ Path.components path = key := by
  rw [recorded, List.mem_filterMap]
  constructor
  · rintro ⟨a, ha, he⟩
    cases a with
    | record path e' =>
      rw [Act.eventOf?] at he
      split at he
      · next hkey =>
        cases he
        exact ⟨path, ha, hkey⟩
      · cases he
    | visit ctx => cases he
    | clear => cases he
  · rintro ⟨path, ha, hkey⟩
    exact ⟨_, ha, by rw [Act.eventOf?, if_pos hkey]⟩

private theorem mem_named_of_record {acts : List Act} {path : String} {e : Event}
    (h : .record path e ∈ acts) : Path.components path ∈ named acts := by
  rw [named, List.mem_toFinset, List.mem_filterMap]
  exact ⟨_, h, rfl⟩

theorem Admitted.mem_named {limits : Limits} {acts : List Act} {key : List Path.Component}
    {e : Event} (h : Admitted limits acts key e) : key ∈ named acts := by
  obtain ⟨front, path, back, rfl, rfl, -⟩ := h
  exact mem_named_of_record (List.mem_append_right _ List.mem_cons_self)

theorem not_admitted_nil {limits : Limits} {key : List Path.Component} {e : Event} :
    ¬ Admitted limits [] key e := by
  rintro ⟨front, path, back, h, -⟩
  simp at h

/-- One more call admits its own event, if it finds room. -/
theorem admitted_concat {limits : Limits} {acts : List Act} {a : Act} {key : List Path.Component}
    {e : Event} :
    Admitted limits (acts ++ [a]) key e ↔
      Admitted limits acts key e ∨
        ∃ path, a = .record path e ∧ Path.components path = key ∧ Roomy limits acts key := by
  constructor
  · rintro ⟨front, path, back, heq, hkey, hroom⟩
    rcases List.eq_nil_or_concat' back with rfl | ⟨back, last, rfl⟩
    · obtain ⟨rfl, hlast⟩ := List.append_inj' heq rfl
      exact .inr ⟨path, List.singleton_inj.mp hlast, hkey, hroom⟩
    · rw [← List.cons_append, ← List.append_assoc] at heq
      exact .inl ⟨front, path, back, (List.append_inj' heq rfl).1, hkey, hroom⟩
  · rintro (⟨front, path, back, rfl, hkey, hroom⟩ | ⟨path, rfl, hkey, hroom⟩)
    · exact ⟨front, path, back ++ [a], by simp, hkey, hroom⟩
    · exact ⟨acts, path, [], rfl, hkey, hroom⟩

namespace Ledger

variable {limits : Limits} {since : List Act} {c : Collector}

theorem length_kept_le_min (h : Ledger limits since c) (key : List Path.Component) :
    (c.kept key).length ≤ min (recorded key since).length limits.maxEventsPerFile :=
  le_min (h.isPrefix key).length_le (h.length_kept_le key)

/-- As long as the buffer is not full, a file lacks only what is over its own limit. -/
theorem length_kept_eq (h : Ledger limits since c) (hfree : c.total < limits.logBufferSize)
    (key : List Path.Component) :
    (c.kept key).length = min (recorded key since).length limits.maxEventsPerFile := by
  have hle := h.length_kept_le_min key
  by_cases hroom : (c.kept key).length < limits.maxEventsPerFile
  · have hwhole := h.whole key (.inr (hasRoom_iff.mpr ⟨hroom, hfree⟩))
    rw [hwhole] at hroom ⊢
    omega
  · omega

private theorem total_le_allotted (h : Ledger limits since c) :
    c.total ≤ allotted limits since := by
  rw [h.total_eq, allotted]
  exact Finset.sum_le_sum fun key _ => h.length_kept_le_min key

private theorem total_eq_allotted (h : Ledger limits since c)
    (hfree : c.total < limits.logBufferSize) :
    c.total = allotted limits since := by
  rw [h.total_eq, allotted]
  exact Finset.sum_congr rfl fun key _ => h.length_kept_eq hfree key

/-- The state of the collector adds nothing to what the calls say about room. -/
theorem hasRoom_iff_roomy (h : Ledger limits since c) (key : List Path.Component) :
    c.hasRoom limits key = true ↔ Roomy limits since key := by
  rw [hasRoom_iff, Roomy]
  have hle := h.total_le_allotted
  constructor
  · rintro ⟨hfile, hfree⟩
    have hlength := h.length_kept_eq hfree key
    have htotal := h.total_eq_allotted hfree
    omega
  · rintro ⟨hfile, hfree⟩
    have hlength := h.length_kept_eq (hle.trans_lt hfree) key
    omega

end Ledger

/-! ## Kept events -/

/-- An event is kept just if it was recorded while there was room. -/
theorem mem_kept_iff (limits : Limits) (acts : List Act) (key : List Path.Component) (e : Event) :
    e ∈ (after limits acts).kept key ↔ Admitted limits (sinceClear acts) key e := by
  -- Whether a call finds room is read off the ledger of the calls before it.
  suffices h : Ledger limits (sinceClear acts) (after limits acts) ∧
      (e ∈ (after limits acts).kept key ↔ Admitted limits (sinceClear acts) key e) from h.2
  have hnone : e ∈ Collector.empty.kept key ↔ Admitted limits [] key e :=
    iff_of_false List.not_mem_nil not_admitted_nil
  refine foldl_accounted (fun since c => Ledger limits since c ∧
    (e ∈ c.kept key ↔ Admitted limits since key e)) ⟨Ledger.empty, hnone⟩ ?_ ?_ acts
  · intro c a hclear
    cases a with
    | clear => exact ⟨Ledger.empty, hnone⟩
    | _ => cases hclear
  · rintro since c a hclear ⟨h, ih⟩
    cases a with
    | record path e' =>
      refine ⟨h.record path e', ?_⟩
      rw [admitted_concat, ← ih, ← h.hasRoom_iff_roomy, Act.apply,
        kept_record h.sortedFiles, List.mem_append]
      refine or_congr_right ?_
      split
      · next hkept =>
        rw [List.mem_singleton]
        constructor
        · rintro rfl
          exact ⟨path, rfl, hkept⟩
        · rintro ⟨path', heq, -⟩
          cases heq
          rfl
      · next hkept =>
        refine iff_of_false List.not_mem_nil ?_
        rintro ⟨path', heq, hroom⟩
        cases heq
        exact hkept hroom
    | visit ctx =>
      refine ⟨h.visit ctx, ?_⟩
      rw [admitted_concat, ← ih]
      simp [Act.apply, visit, kept]
    | clear => cases hclear

theorem failed_kept_iff (limits : Limits) (acts : List Act) (key : List Path.Component) :
    failed ((after limits acts).kept key) = true ↔
      ∃ e, e.isError = true ∧ Admitted limits (sinceClear acts) key e := by
  simp only [failed, List.any_eq_true, mem_kept_iff, and_comm]

/-! ## The verdicts of a summary -/

/-- The failed files of a summary are those with an error that was recorded while there was room,
and the summary has errors just if there is such a file. All other files that were named count as
successful. When nothing was dropped, the failed files are all the files with an error. -/
theorem failures_admitted (limits : Limits) (acts : List Act) :
    ∃ failing ⊆ named (sinceClear acts),
      (∀ key, key ∈ failing ↔ ∃ e, e.isError = true ∧ Admitted limits (sinceClear acts) key e) ∧
      (after limits acts).summary.failedFiles = failing.card ∧
      (after limits acts).summary.successfulFiles = (named (sinceClear acts) \ failing).card ∧
      ((after limits acts).summary.hasErrors = true ↔ failing.Nonempty) ∧
      ((after limits acts).summary.droppedEvents = 0 → ∀ key,
        key ∈ failing ↔ ∃ e ∈ recorded key (sinceClear acts), e.isError = true) := by
  have h := ledger_after limits acts
  refine ⟨{key ∈ named (sinceClear acts) | failed ((after limits acts).kept key)},
    Finset.filter_subset _ _, ?_, ?_, ?_, ?_, ?_⟩
  · intro key
    rw [Finset.mem_filter, failed_kept_iff]
    refine ⟨And.right, fun herror => ⟨?_, herror⟩⟩
    obtain ⟨e, -, hadmitted⟩ := herror
    exact hadmitted.mem_named
  · rw [h.summary_eq]
  · rw [h.summary_eq, ← Finset.filter_not]
    simp
  · rw [h.summary_eq, Summary.hasErrors, decide_eq_true_eq, gt_iff_lt, Finset.sum_pos_iff,
      Finset.filter_nonempty_iff]
    simp only [failed, any_eq_countP, decide_eq_true_eq]
  · intro hdropped key
    rw [h.summary_eq] at hdropped
    rw [Finset.mem_filter, h.whole key (.inl hdropped), failed, List.any_eq_true]
    refine ⟨And.right, fun herror => ⟨?_, herror⟩⟩
    obtain ⟨e, he, -⟩ := herror
    obtain ⟨path, hmem, rfl⟩ := mem_recorded.mp he
    exact mem_named_of_record hmem

/-- An error behind as many other events of its file as are kept of one is overlooked. -/
theorem failed_of_full {limits : Limits} {front : List Act} {path : String} {e : Event}
    (hclear : ∀ a ∈ front, a.isClear = false)
    (hquiet : ∀ key, ∀ e' ∈ recorded key front, e'.isError = false)
    (hfull : limits.maxEventsPerFile ≤ (recorded (Path.components path) front).length)
    (key : List Path.Component) :
    failed ((after limits (front ++ [.record path e])).kept key) = false := by
  have hsince : sinceClear (front ++ [.record path e]) = front ++ [.record path e] := by
    rw [sinceClear, sinceClearing_concat, sinceClearing_of_none hclear]
    rfl
  rw [Bool.eq_false_iff, ne_eq, failed_kept_iff, hsince]
  rintro ⟨e', herror, hadmitted⟩
  rcases admitted_concat.mp hadmitted with ⟨before, path', back, hbefore, hkey, -⟩ |
    ⟨path', heq, rfl, hroom, -⟩
  · have hmem : e' ∈ recorded key front := mem_recorded.mpr ⟨path', by simp [hbefore], hkey⟩
    rw [hquiet key e' hmem] at herror
    cases herror
  · cases heq
    omega

/-- A file with as many warnings as are kept of one file, and then an error. -/
def noisyFile : List Act :=
  List.replicate 500 (.record "a.c" (.warning .development "W000" "w")) ++
    [.record "a.c" (.error .development "E005" "e")]

/-- An error was recorded, but no file counts as failed and the summary has no errors. -/
theorem failure_overlooked :
    (∃ e ∈ recorded (Path.components "a.c") (sinceClear noisyFile), e.isError = true) ∧
      (after .development noisyFile).summary.failedFiles = 0 ∧
      (after .development noisyFile).summary.hasErrors = false := by
  have hnone : ∀ key, failed ((after .development noisyFile).kept key) = false := by
    refine failed_of_full ?_ ?_ ?_
    · intro a ha
      rw [List.eq_of_mem_replicate ha]
      rfl
    · intro key e he
      obtain ⟨path, hmem, -⟩ := mem_recorded.mp he
      cases List.eq_of_mem_replicate hmem
      rfl
    · have hevent : Act.eventOf? (Path.components "a.c")
          (.record "a.c" (.warning .development "W000" "w")) =
          some (.warning .development "W000" "w") := by rw [Act.eventOf?, if_pos rfl]
      rw [recorded, List.filterMap_replicate_of_some hevent, List.length_replicate]
      decide
  have hsummary := (ledger_after .development noisyFile).summary_eq
  have hkept : ∀ key, ((after .development noisyFile).kept key).countP Event.isError = 0 := by
    intro key
    simpa [failed, any_eq_countP] using hnone key
  refine ⟨⟨.error .development "E005" "e", ?_, rfl⟩, ?_, ?_⟩
  · refine mem_recorded.mpr ⟨"a.c", ?_, rfl⟩
    rw [noisyFile, sinceClear, sinceClearing_concat]
    exact List.mem_append_right _ List.mem_cons_self
  · rw [hsummary]
    simp [hnone]
  · rw [hsummary]
    simp [Summary.hasErrors, hkept]

end CInventory.Diagnostic.Collector
