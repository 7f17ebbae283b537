import Mathlib
import CInventory.Diagnostic.Collector
import CInventory.Proofs.Clearings

/-!
# The accounts of a collector

A collector is called in any order: events of files, visits of files, clearings. What it holds is
accounted for by the calls since the last clearing. The kept events of a file are the first of
those that were recorded for it, every event is either kept or counted as dropped, and the summary
counts the files that were named.
-/

namespace CInventory.Assoc

variable {κ α : Type} [Ord κ]

/-- What a change under one key does to a sum over all keys. -/
theorem sum_alter [Std.TransOrd κ] {pairs : List (κ × α)} (sorted : Sorted pairs) (k : κ)
    (f : Option α → α) (size : α → Nat) :
    ((alter k f pairs).map (size ·.2)).sum + ((get? k pairs).map size).getD 0 =
      (pairs.map (size ·.2)).sum + size (f (get? k pairs)) := by
  induction pairs with
  | nil => simp [alter, get?]
  | cons pair rest ih =>
    obtain ⟨k', v⟩ := pair
    unfold alter
    split
    · next hk =>
      rw [get?_eq_none_of_lt (lt_of_lt_head sorted hk)]
      simp only [List.map_cons, List.sum_cons, Option.map_none, Option.getD_none]
      omega
    · next hk =>
      simp only [get?, hk, if_true, List.map_cons, List.sum_cons, Option.map_some, Option.getD_some]
      omega
    · next hk =>
      have hrest := ih (sorted_cons.mp sorted).2
      have hne : compare k k' ≠ .eq := by simp [hk]
      simp only [get?, if_neg hne, List.map_cons, List.sum_cons]
      omega

end CInventory.Assoc

namespace CInventory.Diagnostic.Collector

/-! ## Calls -/

inductive Act where
  | record (path : String) (e : Event)
  | visit (ctx : FileContext)
  | clear

namespace Act

def apply (limits : Limits) (c : Collector) : Act → Collector
  | .record path e => c.record limits path e
  | .visit ctx => c.visit ctx
  | .clear => c.clear

def isRecord : Act → Bool
  | .record _ _ => true
  | _ => false

def isClear : Act → Bool
  | .clear => true
  | _ => false

def file? : Act → Option (List Path.Component)
  | .record path _ => some (Path.components path)
  | .visit ctx => some (Path.components ctx.path)
  | .clear => none

def eventOf? (key : List Path.Component) : Act → Option Event
  | .record path e => if Path.components path = key then some e else none
  | .visit _ => none
  | .clear => none

end Act

def after (limits : Limits) (acts : List Act) : Collector := acts.foldl (Act.apply limits) empty

def sinceClear (acts : List Act) : List Act := sinceClearing Act.isClear acts

def recorded (key : List Path.Component) (acts : List Act) : List Event :=
  acts.filterMap (Act.eventOf? key)

def named (acts : List Act) : Finset (List Path.Component) := (acts.filterMap Act.file?).toFinset

theorem after_concat (limits : Limits) (acts : List Act) (a : Act) :
    after limits (acts ++ [a]) = a.apply limits (after limits acts) := by
  simp [after]

theorem recorded_append (key : List Path.Component) (acts acts' : List Act) :
    recorded key (acts ++ acts') = recorded key acts ++ recorded key acts' :=
  List.filterMap_append

theorem recorded_singleton (key : List Path.Component) (a : Act) :
    recorded key [a] = (a.eventOf? key).toList := by
  cases h : a.eventOf? key <;> simp [recorded, h]

theorem named_append (acts acts' : List Act) :
    named (acts ++ acts') = named acts ∪ named acts' := by
  rw [named, List.filterMap_append, List.toFinset_append]
  rfl

theorem mem_named_singleton {key : List Path.Component} {a : Act} :
    key ∈ named [a] ↔ a.file? = some key := by
  simp [named]

/-! ## One event more -/

def kept (c : Collector) (key : List Path.Component) : List Event :=
  ((Assoc.get? key c.files).map (·.events.toList)).getD []

/-- One more event of the file would be kept. -/
def hasRoom (c : Collector) (limits : Limits) (key : List Path.Component) : Bool :=
  (c.kept key).length < limits.maxEventsPerFile && c.total < limits.logBufferSize

theorem hasRoom_iff {c : Collector} {limits : Limits} {key : List Path.Component} :
    c.hasRoom limits key ↔
      (c.kept key).length < limits.maxEventsPerFile ∧ c.total < limits.logBufferSize := by
  simp [hasRoom]

theorem events_eq_kept (c : Collector) (path : String) :
    c.events path = c.kept (Path.components path) := by
  unfold events kept
  cases Assoc.get? (Path.components path) c.files <;> rfl

private theorem total_eq_sum (c : Collector) : c.total = (c.files.map (·.2.events.size)).sum := by
  rw [total, List.sum_eq_foldl, List.foldl_map]

def withEvent (keeps : Bool) (path : String) (e : Event) (file : Option FileEvents) : FileEvents :=
  let file := file.getD { path }
  if keeps then { file with events := file.events.push e } else file

private theorem toList_withEvent (keeps : Bool) (path : String) (e : Event)
    (file : Option FileEvents) :
    (withEvent keeps path e file).events.toList =
      (file.map (·.events.toList)).getD [] ++ if keeps then [e] else [] := by
  cases file <;> cases keeps <;> simp [withEvent]

theorem record_eq (c : Collector) (limits : Limits) (path : String) (e : Event) :
    c.record limits path e =
      { c with
        files := Assoc.alter (Path.components path)
          (withEvent (c.hasRoom limits (Path.components path)) path e) c.files
        dropped :=
          if c.hasRoom limits (Path.components path) then c.dropped else c.dropped + 1 } := by
  unfold record withEvent hasRoom
  rw [events_eq_kept]

section Record

variable {c : Collector} {limits : Limits} {path : String} {e : Event}

theorem kept_record (sorted : Assoc.Sorted c.files) (key : List Path.Component) :
    (c.record limits path e).kept key =
      c.kept key ++
        if Path.components path = key ∧ c.hasRoom limits key then [e] else [] := by
  rw [record_eq]
  by_cases hkey : Path.components path = key
  · subst hkey
    simp only [kept, Assoc.get?_alter_self sorted, Option.map_some, Option.getD_some,
      toList_withEvent, true_and]
  · have hne : compare key (Path.components path) ≠ .eq := by
      rw [ne_eq, Std.compare_eq_iff_eq]
      exact fun h => hkey h.symm
    simp [kept, Assoc.get?_alter_of_ne hne, hkey]

theorem total_record (sorted : Assoc.Sorted c.files) :
    (c.record limits path e).total =
      c.total + if c.hasRoom limits (Path.components path) then 1 else 0 := by
  have hsum := Assoc.sum_alter sorted (Path.components path)
    (withEvent (c.hasRoom limits (Path.components path)) path e) (·.events.size)
  have hsize : ∀ keeps file, (withEvent keeps path e file).events.size =
      (file.map (·.events.size)).getD 0 + if keeps then 1 else 0 := by
    intro keeps file
    cases file <;> cases keeps <;> simp [withEvent]
  rw [hsize] at hsum
  rw [record_eq, total_eq_sum, total_eq_sum]
  simp only
  omega

theorem dropped_record :
    (c.record limits path e).dropped =
      c.dropped + if c.hasRoom limits (Path.components path) then 0 else 1 := by
  rw [record_eq]
  split <;> rfl

theorem hasRoom_of_record (sorted : Assoc.Sorted c.files) {key : List Path.Component}
    (h : (c.record limits path e).hasRoom limits key) : c.hasRoom limits key := by
  obtain ⟨hfile, htotal⟩ := hasRoom_iff.mp h
  rw [kept_record sorted, List.length_append] at hfile
  rw [total_record sorted] at htotal
  exact hasRoom_iff.mpr ⟨by omega, by omega⟩

end Record

/-! ## What holds after any calls -/

/-- What ties a collector to the calls since the last clearing. -/
structure Ledger (limits : Limits) (since : List Act) (c : Collector) : Prop where
  sortedFiles : Assoc.Sorted c.files
  sortedContexts : Assoc.Sorted c.contexts
  named_iff : ∀ key,
    key ∈ named since ↔ key ∈ c.contexts.map Prod.fst ∨ key ∈ c.files.map Prod.fst
  isPrefix : ∀ key, c.kept key <+: recorded key since
  /-- Nothing is missing as long as nothing was dropped, or the file could still take more. -/
  whole : ∀ key, c.dropped = 0 ∨ c.hasRoom limits key → c.kept key = recorded key since
  length_kept_le : ∀ key, (c.kept key).length ≤ limits.maxEventsPerFile
  total_le : c.total ≤ limits.logBufferSize
  total_add_dropped : c.total + c.dropped = since.countP Act.isRecord

namespace Ledger

variable {limits : Limits} {since : List Act} {c : Collector}

theorem empty : Ledger limits [] empty where
  sortedFiles := List.Pairwise.nil
  sortedContexts := List.Pairwise.nil
  named_iff := by simp [named, Collector.empty]
  isPrefix key := List.prefix_rfl
  whole key _ := rfl
  length_kept_le key := Nat.zero_le _
  total_le := Nat.zero_le _
  total_add_dropped := rfl

theorem visit (h : Ledger limits since c) (ctx : FileContext) :
    Ledger limits (since ++ [.visit ctx]) (c.visit ctx) where
  sortedFiles := h.sortedFiles
  sortedContexts := Assoc.sorted_alter h.sortedContexts _ _
  named_iff key := by
    rw [named_append, Finset.mem_union, mem_named_singleton, or_comm, h.named_iff key,
      Collector.visit, Assoc.insert, Assoc.mem_keys_alter, or_assoc, Act.file?, Option.some_inj,
      eq_comm]
  isPrefix key := by
    rw [recorded_append, recorded_singleton, Act.eventOf?, Option.toList_none, List.append_nil]
    exact h.isPrefix key
  whole key hkey := by
    rw [recorded_append, recorded_singleton, Act.eventOf?, Option.toList_none, List.append_nil]
    exact h.whole key hkey
  length_kept_le := h.length_kept_le
  total_le := h.total_le
  total_add_dropped := by
    rw [List.countP_append, List.countP_singleton]
    exact h.total_add_dropped

theorem record (h : Ledger limits since c) (path : String) (e : Event) :
    Ledger limits (since ++ [.record path e]) (c.record limits path e) where
  sortedFiles := by
    rw [record_eq]
    exact Assoc.sorted_alter h.sortedFiles _ _
  sortedContexts := h.sortedContexts
  named_iff key := by
    rw [named_append, Finset.mem_union, mem_named_singleton, or_comm, h.named_iff key, record_eq,
      Assoc.mem_keys_alter, or_left_comm, Act.file?, Option.some_inj, eq_comm]
  isPrefix key := by
    rw [kept_record h.sortedFiles, recorded_append, recorded_singleton]
    by_cases hkept : Path.components path = key ∧ c.hasRoom limits key
    · rw [h.whole key (.inr hkept.2), if_pos hkept]
      simp [Act.eventOf?, hkept.1]
    · rw [if_neg hkept, List.append_nil]
      exact (h.isPrefix key).trans (List.prefix_append _ _)
  whole key hkey := by
    -- What holds after the event held before it: nothing was dropped, or there was room.
    have hbefore : c.dropped = 0 ∨ c.hasRoom limits key :=
      hkey.imp (fun h0 => by rw [dropped_record] at h0; omega) (hasRoom_of_record h.sortedFiles)
    rw [kept_record h.sortedFiles, recorded_append, recorded_singleton, h.whole key hbefore]
    by_cases hpath : Path.components path = key
    · have hroom : c.hasRoom limits key := by
        rcases hkey with h0 | hroom
        · rw [dropped_record, hpath] at h0
          by_contra hfull
          rw [if_neg hfull] at h0
          omega
        · exact hasRoom_of_record h.sortedFiles hroom
      simp [Act.eventOf?, hpath, hroom]
    · simp [Act.eventOf?, hpath]
  length_kept_le key := by
    have hle := h.length_kept_le key
    rw [kept_record h.sortedFiles]
    split
    · next hkept =>
      have hroom := (hasRoom_iff.mp hkept.2).1
      simp only [List.length_append, List.length_singleton]
      omega
    · simpa using hle
  total_le := by
    have hle := h.total_le
    rw [total_record h.sortedFiles]
    split
    · next hroom =>
      have hroom := (hasRoom_iff.mp hroom).2
      omega
    · exact hle
  total_add_dropped := by
    have hsum := h.total_add_dropped
    rw [total_record h.sortedFiles, dropped_record]
    simp only [List.countP_append, List.countP_singleton, Act.isRecord, if_true]
    split <;> omega

end Ledger

/-- What was kept, dropped and named is always what the calls since the last clearing say. -/
theorem ledger_after (limits : Limits) (acts : List Act) :
    Ledger limits (sinceClear acts) (after limits acts) := by
  refine foldl_accounted (Ledger limits) Ledger.empty ?_ ?_ acts
  · intro c a hclear
    cases a with
    | clear => exact Ledger.empty
    | _ => cases hclear
  · intro since c a hclear h
    cases a with
    | record path e => exact h.record path e
    | visit ctx => exact h.visit ctx
    | clear => cases hclear

/-! ## Summaries -/

/-- A file with these events failed. -/
def failed (events : List Event) : Bool := events.any Event.isError

/-- A file with these events succeeded, but not without warnings. -/
def warned (events : List Event) : Bool := !failed events && events.any Event.isWarning

theorem any_eq_countP (p : Event → Bool) (events : List Event) :
    events.any p = decide (0 < events.countP p) := by
  rw [Bool.eq_iff_iff, List.any_eq_true, decide_eq_true_eq, List.countP_pos_iff]

private theorem addFile_eq (s : Summary) (events : List Event) :
    s.addFile events =
      { totalFiles := s.totalFiles + 1
        successfulFiles := s.successfulFiles + if !failed events then 1 else 0
        failedFiles := s.failedFiles + if failed events then 1 else 0
        filesWithWarnings := s.filesWithWarnings + if warned events then 1 else 0
        totalErrors := s.totalErrors + events.countP Event.isError
        totalWarnings := s.totalWarnings + events.countP Event.isWarning
        droppedEvents := s.droppedEvents } := by
  simp only [Summary.addFile, warned, failed, any_eq_countP]
  generalize events.countP Event.isError = errors
  generalize events.countP Event.isWarning = warnings
  cases errors <;> cases warnings <;> simp

private theorem foldl_addFile (files : List (List Event)) (s : Summary) :
    files.foldl Summary.addFile s =
      { totalFiles := s.totalFiles + files.length
        successfulFiles := s.successfulFiles + files.countP (!failed ·)
        failedFiles := s.failedFiles + files.countP failed
        filesWithWarnings := s.filesWithWarnings + files.countP warned
        totalErrors := s.totalErrors + (files.map (·.countP Event.isError)).sum
        totalWarnings := s.totalWarnings + (files.map (·.countP Event.isWarning)).sum
        droppedEvents := s.droppedEvents } := by
  induction files generalizing s with
  | nil => rfl
  | cons events files ih =>
    rw [List.foldl_cons, ih, addFile_eq]
    simp only [List.length_cons, List.countP_cons, List.map_cons, List.sum_cons, Summary.mk.injEq,
      and_true]
    omega

/-- The files of a summary, those that were visited first. -/
def known (c : Collector) : List (List Path.Component) :=
  c.contexts.map Prod.fst ++ (c.files.map Prod.fst).filter (!Assoc.contains · c.contexts)

private theorem summary_eq_foldl {c : Collector} (sorted : Assoc.Sorted c.files) :
    c.summary = (c.known.map c.kept).foldl Summary.addFile { droppedEvents := c.dropped } := by
  have hothers : (c.files.filter fun p => !Assoc.contains p.1 c.contexts).map
      (·.2.events.toList) =
      ((c.files.map Prod.fst).filter (!Assoc.contains · c.contexts)).map c.kept := by
    rw [List.filter_map, List.map_map]
    refine List.map_congr_left fun p hp => ?_
    have hget := Assoc.get?_of_mem sorted (List.mem_of_mem_filter hp)
    simp [kept, hget]
  unfold summary known
  rw [List.map_append, List.map_map, ← hothers]
  rfl

namespace Ledger

variable {limits : Limits} {since : List Act} {c : Collector}

private theorem nodup_known (h : Ledger limits since c) : c.known.Nodup := by
  refine List.nodup_append.mpr ⟨Assoc.nodup_keys h.sortedContexts,
    (Assoc.nodup_keys h.sortedFiles).filter _, ?_⟩
  intro key hcontext key' hfile heq
  subst heq
  have hcontains := Assoc.contains_iff.mpr hcontext
  simp [hcontains] at hfile

private theorem toFinset_known (h : Ledger limits since c) : c.known.toFinset = named since := by
  ext key
  rw [List.mem_toFinset, h.named_iff, known, List.mem_append, List.mem_filter]
  rw [← Assoc.contains_iff, ← Assoc.contains_iff]
  cases Assoc.contains key c.contexts <;> simp

private theorem countP_known (h : Ledger limits since c) (p : List Event → Bool) :
    (c.known.map c.kept).countP p = {key ∈ named since | p (c.kept key)}.card := by
  rw [List.countP_map, List.countP_eq_length_filter, ← h.toFinset_known,
    ← List.toFinset_filter, List.toFinset_card_of_nodup (h.nodup_known.filter _)]
  rfl

private theorem sum_known (h : Ledger limits since c) (f : List Event → Nat) :
    ((c.known.map c.kept).map f).sum = ∑ key ∈ named since, f (c.kept key) := by
  rw [← h.toFinset_known, List.sum_toFinset _ h.nodup_known, List.map_map]
  rfl

/-- The summary counts the named files, and the kept events of each. -/
theorem summary_eq (h : Ledger limits since c) :
    c.summary =
      { totalFiles := (named since).card
        successfulFiles := {key ∈ named since | !failed (c.kept key)}.card
        failedFiles := {key ∈ named since | failed (c.kept key)}.card
        filesWithWarnings := {key ∈ named since | warned (c.kept key)}.card
        totalErrors := ∑ key ∈ named since, (c.kept key).countP Event.isError
        totalWarnings := ∑ key ∈ named since, (c.kept key).countP Event.isWarning
        droppedEvents := c.dropped } := by
  rw [summary_eq_foldl h.sortedFiles, foldl_addFile]
  simp only [h.countP_known, h.sum_known, List.length_map, Nat.zero_add]
  rw [← h.toFinset_known, List.toFinset_card_of_nodup h.nodup_known]

/-- Every kept event is kept for a file that was named. -/
theorem total_eq (h : Ledger limits since c) :
    c.total = ∑ key ∈ named since, (c.kept key).length := by
  have hfiles : c.total = ((c.files.map Prod.fst).map fun key => (c.kept key).length).sum := by
    rw [total_eq_sum, List.map_map]
    refine congrArg List.sum (List.map_congr_left fun p hp => ?_)
    simp [kept, Assoc.get?_of_mem h.sortedFiles hp]
  rw [hfiles, ← List.sum_toFinset _ (Assoc.nodup_keys h.sortedFiles)]
  refine Finset.sum_subset ?_ ?_
  · intro key hkey
    exact (h.named_iff key).mpr (.inr (List.mem_toFinset.mp hkey))
  · intro key _ hkey
    rw [List.mem_toFinset, ← Assoc.contains_iff, Assoc.contains, Option.not_isSome_iff_eq_none]
      at hkey
    simp [kept, hkey]

end Ledger

/-! ## The accounts -/

/-- What the readings of a collector say about the calls since the last clearing. -/
structure Accounts (limits : Limits) (since : List Act) (c : Collector) : Prop where
  events_isPrefix : ∀ path, c.events path <+: recorded (Path.components path) since
  length_events_le : ∀ path, (c.events path).length ≤ limits.maxEventsPerFile
  total_eq : c.total = ∑ key ∈ named since, (c.kept key).length
  total_le : c.total ≤ limits.logBufferSize
  total_add_dropped : c.total + c.dropped = since.countP Act.isRecord
  droppedEvents_eq : c.summary.droppedEvents = c.dropped
  totalFiles_eq : c.summary.totalFiles = (named since).card
  successful_add_failed :
    c.summary.successfulFiles + c.summary.failedFiles = c.summary.totalFiles
  filesWithWarnings_le : c.summary.filesWithWarnings ≤ c.summary.successfulFiles
  totalErrors_eq :
    c.summary.totalErrors = ∑ key ∈ named since, (c.kept key).countP Event.isError
  totalWarnings_eq :
    c.summary.totalWarnings = ∑ key ∈ named since, (c.kept key).countP Event.isWarning

theorem Ledger.accounts {limits : Limits} {since : List Act} {c : Collector}
    (h : Ledger limits since c) : Accounts limits since c where
  events_isPrefix path := by
    rw [events_eq_kept]
    exact h.isPrefix _
  length_events_le path := by
    rw [events_eq_kept]
    exact h.length_kept_le _
  total_eq := h.total_eq
  total_le := h.total_le
  total_add_dropped := h.total_add_dropped
  droppedEvents_eq := by rw [h.summary_eq]
  totalFiles_eq := by rw [h.summary_eq]
  successful_add_failed := by
    rw [h.summary_eq]
    have hsplit := Finset.card_filter_add_card_filter_not (s := named since)
      (fun key => failed (c.kept key) = true)
    simp only [Bool.not_eq_true] at hsplit
    simp only [Bool.not_eq_true']
    omega
  filesWithWarnings_le := by
    rw [h.summary_eq]
    refine Finset.card_le_card (Finset.monotone_filter_right (named since) ?_)
    intro key _ hkey
    simp only [warned, Bool.and_eq_true] at hkey
    exact hkey.1
  totalErrors_eq := by rw [h.summary_eq]
  totalWarnings_eq := by rw [h.summary_eq]

/-- After any calls the accounts hold, and the next event is kept at the end of its file's events
unless the file or the whole collector is full at that moment; then it is counted as dropped. -/
theorem collector_accounts (limits : Limits) (acts : List Act) :
    Accounts limits (sinceClear acts) (after limits acts) ∧
      ∀ path e, ∃ c c', c = after limits acts ∧ c' = after limits (acts ++ [.record path e]) ∧
        (∀ other, Path.components other ≠ Path.components path →
          c'.events other = c.events other) ∧
        (c'.events path = c.events path ++ [e] ∧ c'.dropped = c.dropped ∨
          c'.events path = c.events path ∧ c'.dropped = c.dropped + 1 ∧
            ((c.events path).length = limits.maxEventsPerFile ∨
              c.total = limits.logBufferSize)) := by
  have h := ledger_after limits acts
  refine ⟨h.accounts, fun path e => ⟨_, _, rfl, rfl, ?_, ?_⟩⟩
  · intro other hother
    rw [after_concat, Act.apply, events_eq_kept, events_eq_kept, kept_record h.sortedFiles]
    simp [hother.symm]
  · rw [after_concat, Act.apply, events_eq_kept, events_eq_kept, kept_record h.sortedFiles,
      dropped_record]
    cases hroom : (after limits acts).hasRoom limits (Path.components path) with
    | true => exact .inl ⟨by simp, rfl⟩
    | false =>
      have hfile := h.length_kept_le (Path.components path)
      have htotal := h.total_le
      have hfull := mt hasRoom_iff.mpr (Bool.not_eq_true _ ▸ hroom)
      exact .inr ⟨by simp, rfl, by omega⟩

end CInventory.Diagnostic.Collector
