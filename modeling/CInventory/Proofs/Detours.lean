import Mathlib
import CInventory.Proofs.Directories

/-!
# Ways through missing directories

Directories that are made on a way change what a second walk finds only where the way comes back
by two dots. Without such a detour, what is in the way of missing directories is a name that is
too long, and a walk that misses nothing finds the same as the making does.
-/

namespace CInventory.FileTree

open CInventory.Path (IsName steps pieces LastLeads)

/-- The steps lead into something that is missing and back out of it. -/
def Detour (t : FileTree) (place : Location) (l : List String) : Prop :=
  ∃ front piece back there, l = front ++ piece :: back ∧ t.walk place front = .ok there ∧
    t.step there piece = .error .notFound ∧ ".." ∈ back

theorem Detour.cons {t : FileTree} {place there : Location} {s : String} {l : List String}
    (hstep : t.step place s = .ok there) (h : t.Detour there l) : t.Detour place (s :: l) := by
  obtain ⟨front, piece, back, last, rfl, hwalk, hmissing, hback⟩ := h
  refine ⟨s :: front, piece, back, last, rfl, ?_, hmissing, hback⟩
  rw [walk_cons, hstep]
  exact hwalk

/-- Names at the end add no way back. -/
theorem Detour.of_append {t : FileTree} {place : Location} {l names : List String}
    (hnames : ∀ n ∈ names, n ≠ "..") (h : t.Detour place (l ++ names)) : t.Detour place l := by
  obtain ⟨front, piece, back, there, heq, hwalk, hmissing, hback⟩ := h
  rcases List.append_eq_append_iff.mp heq with ⟨more, rfl, hmore⟩ | ⟨more, rfl, hmore⟩
  · -- The missing piece is one of the names, and so is all that follows.
    have hmem : ".." ∈ names := by
      rw [hmore]
      exact List.mem_append_right _ (List.mem_cons_of_mem _ hback)
    exact absurd rfl (hnames _ hmem)
  · rcases more with _ | ⟨first, more⟩
    · have hmem : ".." ∈ names := by
        rw [← List.nil_append names, ← hmore]
        exact List.mem_cons_of_mem _ hback
      exact absurd rfl (hnames _ hmem)
    · obtain ⟨rfl, rfl⟩ := List.cons.inj hmore
      refine ⟨front, piece, more, there, rfl, hwalk, hmissing, ?_⟩
      rcases List.mem_append.mp hback with hback | hback
      · exact hback
      · exact absurd rfl (hnames _ hback)

/-- Below a place that holds nothing only the length of a name can be in the way. -/
theorem make_of_fresh {t u : FileTree} {place : Location} {l : List String} {e : FileError}
    (hfresh : ∀ p, place <+: p → p ≠ place → t.at? p = none) (hl : ∀ s ∈ l, s ≠ "..")
    (h : t.make place l = (u, .error e)) : e = .nameTooLong := by
  induction l generalizing t place with
  | nil => cases (Prod.mk.inj h).2
  | cons s l ih =>
      have hs : s ≠ ".." := hl s List.mem_cons_self
      have hnone : t.at? (place ++ [s]) = none := hfresh _ (List.prefix_append _ _) (by simp)
      rw [make, makeStep, if_neg hs] at h
      by_cases hsize : s.utf8ByteSize > maxNameBytes
      · rw [if_pos hsize] at h
        exact (Except.error.inj (Prod.mk.inj h).2).symm
      · rw [if_neg hsize, hnone] at h
        refine ih ?_ (fun s' hs' => hl s' (List.mem_cons_of_mem _ hs')) h
        intro p hp hne
        rw [at?_put_of_ne t _ hne.symm]
        refine hfresh p ((List.prefix_append _ _).trans hp) ?_
        rintro rfl
        simpa using hp.length_le

/-- Without a detour, what is in the way of missing directories is a name that is too long. -/
theorem make_error_of_missing {t u : FileTree} (wf : t.WellFormed) {place : Location}
    (hplace : t.at? place = some .directory) {l : List String}
    (hl : ∀ s ∈ l, s = ".." ∨ IsName s) {e : FileError}
    (hmissing : t.walk place l = .error .notFound) (hdetour : ¬ t.Detour place l)
    (hmake : t.make place l = (u, .error e)) : e = .nameTooLong := by
  induction l generalizing place with
  | nil => cases hmissing
  | cons s l ih =>
      have hl' : ∀ s' ∈ l, s' = ".." ∨ IsName s' := fun s' hs' => hl s' (List.mem_cons_of_mem _ hs')
      rw [walk_cons] at hmissing
      rw [make] at hmake
      rcases step_cases hplace (hl s List.mem_cons_self) with ⟨-, hstep, hmade⟩ |
        ⟨-, -, hstep, hmade⟩ | ⟨hname, hsize, ⟨hnode, hstep, hmade⟩ | ⟨hnode, hstep, hmade⟩ |
        ⟨c, hnode, hstep, hmade⟩⟩ <;> rw [hmade] at hmake
      · rw [hstep] at hmissing
        exact ih (wf.dropLast hplace) hl' hmissing (fun h => hdetour (h.cons hstep)) hmake
      · exact (Except.error.inj (Prod.mk.inj hmake).2).symm
      · have hup : ∀ s' ∈ l, s' ≠ ".." := by
          rintro s' hs' rfl
          exact hdetour ⟨[], s, l, place, rfl, rfl, hstep, hs'⟩
        refine make_of_fresh ?_ hup hmake
        intro p hp hne
        rw [at?_put_of_ne t _ hne.symm, Option.eq_none_iff_forall_not_mem]
        intro node hp'
        have hdir := wf.of_isPrefix hp' hp hne.symm
        rw [hnode] at hdir
        cases hdir
      · rw [hstep] at hmissing
        exact ih hnode hl' hmissing (fun h => hdetour (h.cons hstep)) hmake
      · exfalso
        rw [hstep] at hmissing
        rcases l with _ | ⟨s', l⟩
        · cases hmissing
        · change t.walk (place ++ [s]) (s' :: l) = .error .notFound at hmissing
          rw [walk_cons, step_of_not_directory (isDirectoryAt_of_file hnode)] at hmissing
          cases hmissing

/-- A name that is too long for making directories ends the walk, if nothing is missing. -/
theorem walk_of_make_nameTooLong {t u : FileTree} (wf : t.WellFormed) {place : Location}
    (hplace : t.at? place = some .directory) {l : List String}
    (hl : ∀ s ∈ l, s = ".." ∨ IsName s) (hmake : t.make place l = (u, .error .nameTooLong)) :
    t.walk place l = .error .notFound ∨ t.walk place l = .error .nameTooLong := by
  induction l generalizing place with
  | nil => cases (Prod.mk.inj hmake).2
  | cons s l ih =>
      have hl' : ∀ s' ∈ l, s' = ".." ∨ IsName s' := fun s' hs' => hl s' (List.mem_cons_of_mem _ hs')
      rw [make] at hmake
      rw [walk_cons]
      rcases step_cases hplace (hl s List.mem_cons_self) with ⟨-, hstep, hmade⟩ |
        ⟨-, -, hstep, -⟩ | ⟨-, -, ⟨-, hstep, -⟩ | ⟨hnode, hstep, hmade⟩ |
        ⟨c, -, hstep, hmade⟩⟩ <;> rw [hstep]
      · rw [hmade] at hmake
        exact ih (wf.dropLast hplace) hl' hmake
      · exact .inr rfl
      · exact .inl rfl
      · rw [hmade] at hmake
        exact ih hnode hl' hmake
      · rw [hmade] at hmake
        cases (Prod.mk.inj hmake).2

theorem resolve_eq_walk (t : FileTree) {path : String} (hfault : pathFault? path = none)
    (hlast : LastLeads (pieces path)) :
    t.resolve path = t.walk (t.origin path) (steps path) := by
  obtain ⟨front, last, -, -, hsteps⟩ := steps_concat hlast
  rw [t.resolve_of_steps hfault hlast hsteps, hsteps, walk_concat]

end CInventory.FileTree
