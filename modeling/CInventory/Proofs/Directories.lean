import Mathlib
import CInventory.Proofs.PathSteps

/-!
# Making directories

A chain of directories is made from the end of a path: creation is tried there first, and each
missing parent before its child. `make` goes through the steps of the path from the front and
creates what is missing. Both leave the same tree, and they differ only in the reason given when
something is in the way: a path that leads to it already gives the reason of the walk.
-/

namespace CInventory.FileTree

open CInventory.Path (IsName isIdle steps pieces LastLeads IsBare)

/-! ## Looking up -/

@[simp] theorem at?_nil (t : FileTree) : t.at? [] = some .directory := rfl

theorem at?_put (t : FileTree) (place : Location) (name : String) (node : Node) (p : Location) :
    (t.put (place ++ [name]) node).at? p = if place ++ [name] = p then some node else t.at? p := by
  by_cases hp : p = []
  · simp [hp]
  · simp only [at?, put, List.isEmpty_iff, hp, if_false, Std.ExtTreeMap.getElem?_insert,
      Std.compare_eq_iff_eq]

@[simp] theorem put_home (t : FileTree) (place : Location) (node : Node) :
    (t.put place node).home = t.home := rfl

@[simp] theorem at?_put_self (t : FileTree) (place : Location) (name : String) (node : Node) :
    (t.put (place ++ [name]) node).at? (place ++ [name]) = some node := by
  rw [at?_put, if_pos rfl]

theorem at?_put_of_ne (t : FileTree) {place p : Location} {name : String} (node : Node)
    (h : place ++ [name] ≠ p) : (t.put (place ++ [name]) node).at? p = t.at? p := by
  rw [at?_put, if_neg h]

theorem isDirectoryAt_iff {t : FileTree} {p : Location} :
    t.isDirectoryAt p = true ↔ t.at? p = some .directory := by
  rw [isDirectoryAt]
  split <;> simp_all

theorem isDirectoryAt_of_file {t : FileTree} {p : Location} {c : ByteArray}
    (h : t.at? p = some (.file c)) : t.isDirectoryAt p = false := by
  simp [isDirectoryAt, h]

/-! ## Trees -/

/-- Everything stands in a directory and has a name of its own. -/
structure WellFormed (t : FileTree) : Prop where
  parent : ∀ {place name node}, t.at? (place ++ [name]) = some node →
    t.at? place = some .directory
  isName : ∀ {place name node}, t.at? (place ++ [name]) = some node →
    IsName name ∧ name.utf8ByteSize ≤ maxNameBytes
  home : t.at? t.home = some .directory

theorem wellFormed_empty : WellFormed {} where
  parent h := by simp [at?] at h
  isName h := by simp [at?] at h
  home := rfl

theorem WellFormed.put {t : FileTree} (wf : t.WellFormed) {place : Location} {name : String}
    {node : Node} (hplace : t.at? place = some .directory) (hname : IsName name)
    (hsize : name.utf8ByteSize ≤ maxNameBytes)
    (hkeep : t.at? (place ++ [name]) = some .directory → node = .directory) :
    (t.put (place ++ [name]) node).WellFormed := by
  -- A directory stays one, so it can still hold what stands in it.
  have hdirectory : ∀ p, t.at? p = some .directory →
      (t.put (place ++ [name]) node).at? p = some .directory := by
    intro p hp
    rw [at?_put]
    split
    · next heq => rw [hkeep (heq ▸ hp)]
    · exact hp
  refine ⟨?_, ?_, hdirectory _ wf.home⟩
  · intro place' name' node' h
    rw [at?_put] at h
    split at h
    · next heq =>
        obtain ⟨rfl, -⟩ := List.append_inj' heq rfl
        exact hdirectory _ hplace
    · exact hdirectory _ (wf.parent h)
  · intro place' name' node' h
    rw [at?_put] at h
    split at h
    · next heq =>
        obtain ⟨-, heq⟩ := List.append_inj' heq rfl
        obtain rfl : name = name' := by simpa using heq
        exact ⟨hname, hsize⟩
    · exact wf.isName h

theorem WellFormed.of_isPrefix {t : FileTree} (wf : t.WellFormed) {front place : Location}
    {node : Node} (h : t.at? place = some node) (hfront : front <+: place) (hne : front ≠ place) :
    t.at? front = some .directory := by
  obtain ⟨back, rfl⟩ := hfront
  induction back using List.reverseRecOn generalizing node with
  | nil => simp at hne
  | append_singleton back name ih =>
      rw [← List.append_assoc] at h
      have hparent := wf.parent h
      rcases back with _ | ⟨n, back⟩
      · simpa using hparent
      · exact ih hparent (by simp)

theorem WellFormed.dropLast {t : FileTree} (wf : t.WellFormed) {place : Location}
    (h : t.at? place = some .directory) : t.at? place.dropLast = some .directory := by
  rcases List.eq_nil_or_concat' place with rfl | ⟨front, name, rfl⟩
  · exact h
  · simpa using wf.parent h

/-- What a later tree keeps of an earlier one: directories and files stay what they are, and only
files with one of the given names get another content. -/
structure Grows (names : List String) (t u : FileTree) : Prop where
  home : u.home = t.home
  directory : ∀ {p}, t.at? p = some .directory → u.at? p = some .directory
  file : ∀ {p c}, t.at? p = some (.file c) → ∃ c', u.at? p = some (.file c')
  content : ∀ {p n c}, t.at? (p ++ [n]) = some (.file c) → n ∉ names →
    u.at? (p ++ [n]) = some (.file c)

namespace Grows

variable {names : List String} {t u v : FileTree}

theorem refl (names : List String) (t : FileTree) : Grows names t t :=
  ⟨rfl, id, fun h => ⟨_, h⟩, fun h _ => h⟩

theorem trans (h₁ : Grows names t u) (h₂ : Grows names u v) : Grows names t v where
  home := h₂.home.trans h₁.home
  directory h := h₂.directory (h₁.directory h)
  file h := let ⟨_, h⟩ := h₁.file h; h₂.file h
  content h hn := h₂.content (h₁.content h hn) hn

theorem mono {more : List String} (h : Grows names t u) (hsub : names ⊆ more) : Grows more t u :=
  ⟨h.home, h.directory, h.file, fun hc hn => h.content hc fun hmem => hn (hsub hmem)⟩

private theorem put_new (names : List String) {place : Location} {name : String} (node : Node)
    (hnew : t.at? (place ++ [name]) = none) :
    Grows names t (t.put (place ++ [name]) node) := by
  have hkeep : ∀ {p other}, t.at? p = some other →
      (t.put (place ++ [name]) node).at? p = some other := by
    intro p other h
    have hne : place ++ [name] ≠ p := by
      rintro rfl
      rw [hnew] at h
      cases h
    rw [at?_put_of_ne t node hne, h]
  exact ⟨rfl, hkeep, fun h => ⟨_, hkeep h⟩, fun h _ => hkeep h⟩

theorem put_file {place : Location} {name : String} (content : ByteArray) (hname : name ∈ names)
    (hfile : t.at? (place ++ [name]) ≠ some .directory) :
    Grows names t (t.put (place ++ [name]) (.file content)) := by
  refine ⟨rfl, ?_, ?_, ?_⟩
  · intro p h
    have hne : place ++ [name] ≠ p := by
      rintro rfl
      exact hfile h
    rw [at?_put_of_ne t _ hne, h]
  · intro p c h
    rw [at?_put]
    split
    · exact ⟨content, rfl⟩
    · exact ⟨c, h⟩
  · intro p n c h hn
    have hne : place ++ [name] ≠ p ++ [n] := by
      intro heq
      obtain ⟨-, heq⟩ := List.append_inj' heq rfl
      simp_all
    rw [at?_put_of_ne t _ hne, h]

end Grows

/-! ## Walking -/

@[simp] theorem walk_nil (t : FileTree) (place : Location) : t.walk place [] = .ok place := rfl

theorem walk_cons (t : FileTree) (place : Location) (s : String) (rest : List String) :
    t.walk place (s :: rest) = (t.step place s).bind (t.walk · rest) := rfl

theorem walk_append (t : FileTree) (place : Location) (front back : List String) :
    t.walk place (front ++ back) = (t.walk place front).bind (t.walk · back) := by
  induction front generalizing place with
  | nil => rfl
  | cons s front ih =>
      rw [List.cons_append, walk_cons, walk_cons]
      cases t.step place s with
      | error e => rfl
      | ok there => exact ih there

def arrive (t : FileTree) (place : Location) (pieces : List String) : Except FileError Location :=
  (t.walk place pieces).bind fun there =>
    if t.isDirectoryAt there then .ok there else .error .notDirectory

theorem arrive_nil (t : FileTree) {place : Location} (h : t.at? place = some .directory) :
    t.arrive place [] = .ok place := by
  simp [arrive, Except.bind, isDirectoryAt_iff.mpr h]

theorem arrive_cons (t : FileTree) (place : Location) (s : String) (rest : List String) :
    t.arrive place (s :: rest) = (t.step place s).bind (t.arrive · rest) := by
  rw [arrive, walk_cons]
  cases t.step place s <;> rfl

theorem step_of_not_directory {t : FileTree} {place : Location}
    (h : t.isDirectoryAt place = false) (s : String) : t.step place s = .error .notDirectory := by
  simp [step, h]

theorem arrive_of_not_directory {t : FileTree} {place : Location}
    (h : t.isDirectoryAt place = false) (l : List String) :
    t.arrive place l = .error .notDirectory := by
  cases l with
  | nil => simp [arrive, Except.bind, h]
  | cons s rest => rw [arrive_cons, step_of_not_directory h]; rfl

theorem arrive_append (t : FileTree) (place : Location) (front back : List String) :
    t.arrive place (front ++ back) = (t.arrive place front).bind (t.arrive · back) := by
  induction front generalizing place with
  | nil =>
      by_cases hplace : t.isDirectoryAt place = true
      · rw [arrive_nil t (isDirectoryAt_iff.mp hplace)]
        rfl
      · rw [List.nil_append, arrive_of_not_directory (by simpa using hplace),
          arrive_of_not_directory (by simpa using hplace)]
        rfl
  | cons s front ih =>
      rw [List.cons_append, arrive_cons, arrive_cons]
      cases t.step place s with
      | error e => rfl
      | ok there => exact ih there

theorem step_idle {t : FileTree} {place : Location} (h : t.isDirectoryAt place = true)
    {s : String} (hs : isIdle s = true) : t.step place s = .ok place := by
  simp [step, h, hs]

theorem arrive_filter (t : FileTree) (place : Location) (l : List String) :
    t.arrive place (l.filter (!isIdle ·)) = t.arrive place l := by
  induction l generalizing place with
  | nil => rfl
  | cons s l ih =>
      by_cases hdir : t.isDirectoryAt place = true
      · by_cases hs : isIdle s = true
        · rw [arrive_cons, step_idle hdir hs]
          simpa [hs, Except.bind] using ih place
        · have hfilter : (s :: l).filter (!isIdle ·) = s :: l.filter (!isIdle ·) := by simp [hs]
          rw [hfilter, arrive_cons, arrive_cons]
          cases t.step place s with
          | error e => rfl
          | ok there => exact ih there
      · rw [Bool.not_eq_true] at hdir
        rw [arrive_of_not_directory hdir, arrive_of_not_directory hdir]

theorem walk_concat (t : FileTree) (place : Location) (front : List String) (s : String) :
    t.walk place (front ++ [s]) = (t.arrive place front).bind (t.step · s) := by
  rw [walk_append, arrive]
  cases t.walk place front with
  | error e => rfl
  | ok there =>
      change (t.step there s).bind (fun p => .ok p) = _
      have hbind : ∀ r : Except FileError Location, r.bind (fun p => .ok p) = r := by
        rintro (e | p) <;> rfl
      rw [hbind]
      by_cases hdir : t.isDirectoryAt there = true
      · simp [Except.bind, hdir]
      · rw [Bool.not_eq_true] at hdir
        simp [Except.bind, hdir, step_of_not_directory hdir]

/-- The steps of a path that leads somewhere, with the last one apart. -/
theorem steps_concat {path : String} (h : LastLeads (pieces path)) :
    ∃ front last, pieces path = front ++ [last] ∧ isIdle last = false ∧
      steps path = front.filter (!isIdle ·) ++ [last] := by
  obtain ⟨front, last, hpieces, hidle⟩ := h.exists_append
  exact ⟨front, last, hpieces, hidle, by simp [steps, hpieces, hidle]⟩

theorem pathFault?_of_resolve {t : FileTree} {path : String} {place : Location}
    (h : t.resolve path = .ok place) : pathFault? path = none := by
  rw [resolve] at h
  split at h
  · cases h
  · next hfault => exact hfault

theorem resolve_of_steps (t : FileTree) {path last : String} {front : List String}
    (hfault : pathFault? path = none) (hlast : LastLeads (pieces path))
    (hsteps : steps path = front ++ [last]) :
    t.resolve path = (t.arrive (t.origin path) front).bind (t.step · last) := by
  obtain ⟨front', last', hpieces, -, hsteps'⟩ := steps_concat hlast
  obtain ⟨rfl, heq⟩ := List.append_inj' (hsteps.symm.trans hsteps') rfl
  obtain rfl : last = last' := by simpa using heq
  rw [resolve, hfault, arrive_filter]
  change t.walk (t.origin path) (pieces path) = _
  rw [hpieces, walk_concat]

theorem lastStep_of_steps (t : FileTree) {path last : String} {front : List String}
    (hfault : pathFault? path = none) (hlast : LastLeads (pieces path))
    (hsteps : steps path = front ++ [last]) :
    t.lastStep path = (t.arrive (t.origin path) front).map (·, last) := by
  obtain ⟨front', last', hpieces, hidle, hsteps'⟩ := steps_concat hlast
  obtain ⟨rfl, heq⟩ := List.append_inj' (hsteps.symm.trans hsteps') rfl
  obtain rfl : last = last' := by simpa using heq
  have hne : last ≠ "" := by
    rintro rfl
    exact absurd hidle (by decide)
  have hdrop : (pieces path).reverse.dropWhile (· = "") = last :: front'.reverse := by
    simp [hpieces, hne]
  rw [lastStep, hfault, arrive_filter, arrive]
  simp only [hdrop, List.reverse_reverse]
  cases t.walk (t.origin path) front' with
  | error e => rfl
  | ok there =>
      change (if t.isDirectoryAt there then _ else _) = _
      by_cases hdir : t.isDirectoryAt there = true <;> simp [Except.bind, Except.map, hdir] <;> rfl

/-! ## Steps that make what is missing -/

/-- One step from a directory, which makes a directory where there is nothing. -/
def makeStep (t : FileTree) (place : Location) (s : String) :
    FileTree × Except FileError Location :=
  if s = ".." then (t, .ok place.dropLast)
  else if s.utf8ByteSize > maxNameBytes then (t, .error .nameTooLong)
  else
    match t.at? (place ++ [s]) with
    | some .directory => (t, .ok (place ++ [s]))
    | some (.file _) => (t, .error .alreadyExists)
    | none => (t.put (place ++ [s]) .directory, .ok (place ++ [s]))

theorem makeStep_of_name (t : FileTree) (place : Location) {s : String} (hs : s ≠ "..")
    (hsize : ¬ s.utf8ByteSize > maxNameBytes) :
    t.makeStep place s =
      match t.at? (place ++ [s]) with
      | some .directory => (t, .ok (place ++ [s]))
      | some (.file _) => (t, .error .alreadyExists)
      | none => (t.put (place ++ [s]) .directory, .ok (place ++ [s])) :=
  (if_neg hs).trans (if_neg hsize)

/-- All steps from a directory. What was made before a failure stays. -/
def make (t : FileTree) (place : Location) : List String → FileTree × Except FileError Location
  | [] => (t, .ok place)
  | s :: rest =>
    match t.makeStep place s with
    | (u, .ok there) => u.make there rest
    | (u, .error e) => (u, .error e)

theorem make_append_of_ok {t u : FileTree} {place there : Location} {front : List String}
    (h : t.make place front = (u, .ok there)) (back : List String) :
    t.make place (front ++ back) = u.make there back := by
  induction front generalizing t place with
  | nil =>
      obtain ⟨rfl, heq⟩ := Prod.mk.inj h
      obtain rfl := Except.ok.inj heq
      rfl
  | cons s front ih =>
      rw [make] at h
      rw [List.cons_append, make]
      rcases hstep : t.makeStep place s with ⟨v, e | next⟩ <;> rw [hstep] at h
      · cases (Prod.mk.inj h).2
      · exact ih h

theorem make_append_of_error {t u : FileTree} {place : Location} {front : List String}
    {e : FileError} (h : t.make place front = (u, .error e)) (back : List String) :
    t.make place (front ++ back) = (u, .error e) := by
  induction front generalizing t place with
  | nil => cases (Prod.mk.inj h).2
  | cons s front ih =>
      rw [make] at h
      rw [List.cons_append, make]
      rcases hstep : t.makeStep place s with ⟨v, e' | next⟩ <;> rw [hstep] at h
      · exact h
      · exact ih h

theorem make_singleton (t : FileTree) (place : Location) (s : String) :
    t.make place [s] = t.makeStep place s := by
  rw [make]
  rcases t.makeStep place s with ⟨u, e | there⟩ <;> rfl

/-- A step leads up, or its name is too long, or nothing is there, or a directory, or a file. -/
theorem step_cases {t : FileTree} {place : Location} (hplace : t.at? place = some .directory)
    {s : String} (hs : s = ".." ∨ IsName s) :
    (s = ".." ∧ t.step place s = .ok place.dropLast ∧
      t.makeStep place s = (t, .ok place.dropLast)) ∨
    (IsName s ∧ maxNameBytes < s.utf8ByteSize ∧ t.step place s = .error .nameTooLong ∧
      t.makeStep place s = (t, .error .nameTooLong)) ∨
    (IsName s ∧ s.utf8ByteSize ≤ maxNameBytes ∧
      ((t.at? (place ++ [s]) = none ∧ t.step place s = .error .notFound ∧
          t.makeStep place s = (t.put (place ++ [s]) .directory, .ok (place ++ [s]))) ∨
        (t.at? (place ++ [s]) = some .directory ∧ t.step place s = .ok (place ++ [s]) ∧
          t.makeStep place s = (t, .ok (place ++ [s]))) ∨
        ∃ c, t.at? (place ++ [s]) = some (.file c) ∧ t.step place s = .ok (place ++ [s]) ∧
          t.makeStep place s = (t, .error .alreadyExists))) := by
  have hdir := isDirectoryAt_iff.mpr hplace
  rcases hs with rfl | hs
  · exact .inl ⟨rfl, by simp [step, hdir, isIdle], by simp [makeStep]⟩
  · right
    by_cases hsize : maxNameBytes < s.utf8ByteSize
    · exact .inl ⟨hs, hsize, by simp [step, hdir, hs.not_idle, hs.not_up, hsize],
        by simp [makeStep, hs.not_up, hsize]⟩
    · refine .inr ⟨hs, Nat.le_of_not_lt hsize, ?_⟩
      rcases hnode : t.at? (place ++ [s]) with _ | (c | _) <;>
        simp [step, makeStep, hdir, hs.not_idle, hs.not_up, hsize, hnode]

theorem makeStep_spec {t u : FileTree} (wf : t.WellFormed) {place : Location}
    (hplace : t.at? place = some .directory) {s : String} (hs : s = ".." ∨ IsName s)
    {r : Except FileError Location} (h : t.makeStep place s = (u, r)) :
    u.WellFormed ∧ Grows [] t u ∧ ∀ there, r = .ok there →
      u.at? there = some .directory ∧ u.step place s = .ok there := by
  rcases step_cases hplace hs with ⟨-, hstep, hmake⟩ | ⟨-, -, hstep, hmake⟩ | ⟨hname, hsize,
    ⟨hnode, hstep, hmake⟩ | ⟨hnode, hstep, hmake⟩ | ⟨c, hnode, hstep, hmake⟩⟩ <;>
    rw [hmake] at h <;> obtain ⟨rfl, rfl⟩ := Prod.mk.inj h
  · refine ⟨wf, Grows.refl _ _, ?_⟩
    rintro there ⟨⟩
    exact ⟨wf.dropLast hplace, hstep⟩
  · exact ⟨wf, Grows.refl _ _, fun there h => by cases h⟩
  · have hgrows := Grows.put_new [] .directory hnode
    refine ⟨wf.put hplace hname hsize fun _ => rfl, hgrows, ?_⟩
    rintro there ⟨⟩
    have hdir := isDirectoryAt_iff.mpr (hgrows.directory hplace)
    refine ⟨at?_put_self _ _ _ _, ?_⟩
    simp [step, hdir, hname.not_idle, hname.not_up, Nat.not_lt.mpr hsize]
  · refine ⟨wf, Grows.refl _ _, ?_⟩
    rintro there ⟨⟩
    exact ⟨hnode, hstep⟩
  · exact ⟨wf, Grows.refl _ _, fun there h => by cases h⟩

/-! ## Walks in a tree that grows -/

/-- A step that does not miss anything leads to the same place later. -/
theorem step_of_grows {names : List String} {t u : FileTree} (grows : Grows names t u)
    {place : Location} {node : Node} (hplace : t.at? place = some node) {s : String}
    (h : t.step place s ≠ .error .notFound) : u.step place s = t.step place s := by
  rcases node with c | _
  · obtain ⟨c', hlater⟩ := grows.file hplace
    rw [step_of_not_directory (isDirectoryAt_of_file hlater),
      step_of_not_directory (isDirectoryAt_of_file hplace)]
  · have hdir := isDirectoryAt_iff.mpr hplace
    have hlater := isDirectoryAt_iff.mpr (grows.directory hplace)
    by_cases hidle : isIdle s = true
    · rw [step_idle hdir hidle, step_idle hlater hidle]
    · by_cases hup : s = ".."
      · simp [step, hdir, hlater, hup, isIdle]
      · by_cases hsize : s.utf8ByteSize > maxNameBytes
        · simp [step, hdir, hlater, hidle, hup, hsize]
        · rcases hnode : t.at? (place ++ [s]) with _ | (c | _)
          · simp [step, hdir, hidle, hup, hsize, hnode] at h
          · obtain ⟨c', hc'⟩ := grows.file hnode
            simp [step, hdir, hlater, hidle, hup, hsize, hnode, hc']
          · simp [step, hdir, hlater, hidle, hup, hsize, hnode, grows.directory hnode]

theorem exists_node_of_step {t : FileTree} (wf : t.WellFormed) {place there : Location} {s : String}
    (h : t.step place s = .ok there) : ∃ node, t.at? there = some node := by
  by_cases hdir : t.isDirectoryAt place = true
  · have hplace := isDirectoryAt_iff.mp hdir
    rw [step] at h
    simp only [hdir, Bool.not_true, Bool.false_eq_true, if_false] at h
    split at h
    · obtain rfl := Except.ok.inj h
      exact ⟨_, hplace⟩
    · split at h
      · obtain rfl := Except.ok.inj h
        exact ⟨_, wf.dropLast hplace⟩
      · split at h
        · cases h
        · split at h
          · next hsome =>
              obtain rfl := Except.ok.inj h
              exact Option.isSome_iff_exists.mp hsome
          · cases h
  · rw [Bool.not_eq_true] at hdir
    rw [step_of_not_directory hdir] at h
    cases h

theorem walk_of_grows {names : List String} {t u : FileTree} (grows : Grows names t u)
    (wf : t.WellFormed) {place : Location} {node : Node} (hplace : t.at? place = some node)
    {l : List String} (h : t.walk place l ≠ .error .notFound) :
    u.walk place l = t.walk place l := by
  induction l generalizing place node with
  | nil => rfl
  | cons s l ih =>
      rw [walk_cons] at h
      rw [walk_cons, walk_cons]
      rcases hstep : t.step place s with e | there
      · rw [hstep] at h
        rw [step_of_grows grows hplace (by rw [hstep]; exact h), hstep]
        rfl
      · rw [hstep] at h
        rw [step_of_grows grows hplace (by simp [hstep]), hstep]
        obtain ⟨node, hnode⟩ := exists_node_of_step wf hstep
        exact ih hnode h

/-! ## Walking and making -/

section Making

variable {t u : FileTree} {place there : Location} {l : List String}

theorem make_spec (wf : t.WellFormed) (hplace : t.at? place = some .directory)
    (hl : ∀ s ∈ l, s = ".." ∨ IsName s) {r : Except FileError Location}
    (h : t.make place l = (u, r)) :
    u.WellFormed ∧ Grows [] t u ∧ ∀ there, r = .ok there →
      u.at? there = some .directory ∧ u.arrive place l = .ok there := by
  induction l generalizing t place with
  | nil =>
      obtain ⟨rfl, rfl⟩ := Prod.mk.inj h
      refine ⟨wf, Grows.refl _ _, ?_⟩
      rintro there ⟨⟩
      exact ⟨hplace, arrive_nil _ hplace⟩
  | cons s l ih =>
      rw [make] at h
      rcases hstep : t.makeStep place s with ⟨v, e | next⟩ <;> rw [hstep] at h
      · obtain ⟨rfl, rfl⟩ := Prod.mk.inj h
        obtain ⟨wf', grows, -⟩ := makeStep_spec wf hplace (hl s List.mem_cons_self) hstep
        exact ⟨wf', grows, fun there h => by cases h⟩
      · obtain ⟨wf', grows, hnext⟩ := makeStep_spec wf hplace (hl s List.mem_cons_self) hstep
        obtain ⟨hdir, hleads⟩ := hnext next rfl
        obtain ⟨wf'', grows', hend⟩ :=
          ih wf' hdir (fun s' hs' => hl s' (List.mem_cons_of_mem _ hs')) h
        refine ⟨wf'', grows.trans grows', ?_⟩
        intro there hthere
        obtain ⟨hdir', harrive⟩ := hend there hthere
        refine ⟨hdir', ?_⟩
        rw [arrive_cons, step_of_grows grows' (grows.directory hplace) (by simp [hleads]), hleads]
        exact harrive

/-- Where the way is free nothing is made. -/
theorem make_of_arrive (hplace : t.at? place = some .directory)
    (hl : ∀ s ∈ l, s = ".." ∨ IsName s) (wf : t.WellFormed)
    (h : t.arrive place l = .ok there) : t.make place l = (t, .ok there) := by
  induction l generalizing place with
  | nil =>
      rw [arrive_nil t hplace] at h
      obtain rfl := Except.ok.inj h
      rfl
  | cons s l ih =>
      have hl' : ∀ s' ∈ l, s' = ".." ∨ IsName s' := fun s' hs' => hl s' (List.mem_cons_of_mem _ hs')
      rw [arrive_cons] at h
      rw [make]
      rcases step_cases hplace (hl s List.mem_cons_self) with ⟨-, hstep, hmake⟩ |
        ⟨-, -, hstep, -⟩ | ⟨-, -, ⟨-, hstep, -⟩ | ⟨hnode, hstep, hmake⟩ | ⟨c, hnode, hstep, -⟩⟩ <;>
        rw [hstep] at h
      · rw [hmake]
        exact ih (wf.dropLast hplace) hl' h
      · cases h
      · cases h
      · rw [hmake]
        exact ih hnode hl' h
      · change t.arrive (place ++ [s]) l = .ok there at h
        rw [arrive_of_not_directory (isDirectoryAt_of_file hnode)] at h
        cases h

theorem make_of_arrive_error (hplace : t.at? place = some .directory)
    (hl : ∀ s ∈ l, s = ".." ∨ IsName s) (wf : t.WellFormed) {e : FileError} (he : e ≠ .notFound)
    (h : t.arrive place l = .error e) : ∃ e', t.make place l = (t, .error e') := by
  induction l generalizing place with
  | nil =>
      rw [arrive_nil t hplace] at h
      cases h
  | cons s l ih =>
      have hl' : ∀ s' ∈ l, s' = ".." ∨ IsName s' := fun s' hs' => hl s' (List.mem_cons_of_mem _ hs')
      rw [arrive_cons] at h
      rw [make]
      rcases step_cases hplace (hl s List.mem_cons_self) with ⟨-, hstep, hmake⟩ |
        ⟨-, -, -, hmake⟩ | ⟨-, -, ⟨-, hstep, -⟩ | ⟨hnode, hstep, hmake⟩ | ⟨c, -, -, hmake⟩⟩
      · rw [hstep] at h
        rw [hmake]
        exact ih (wf.dropLast hplace) hl' h
      · exact ⟨_, by rw [hmake]⟩
      · rw [hstep] at h
        exact absurd (Except.error.inj h).symm he
      · rw [hstep] at h
        rw [hmake]
        exact ih hnode hl' h
      · exact ⟨_, by rw [hmake]⟩

end Making

/-! ## Chains of directories -/

theorem pathFault?_of_isPrefix {a b : String} (h : a.toList <+: b.toList) (ha : a ≠ "")
    (hb : pathFault? b = none) : pathFault? a = none := by
  obtain ⟨back, hback⟩ := h
  obtain rfl : b = a ++ String.ofList back := String.toList_injective (by simp [hback])
  simp only [pathFault?, String.toList_append, List.contains_eq_mem, List.mem_append,
    String.utf8ByteSize_append, decide_eq_true_eq] at hb ⊢
  split at hb
  · cases hb
  · next hnul =>
      split at hb
      · cases hb
      · split at hb
        · cases hb
        · next hsize =>
            rw [if_neg fun h => hnul (.inl h), if_neg ha,
              if_neg fun h => hsize (Nat.lt_of_lt_of_le h (Nat.le_add_right _ _))]

theorem at?_origin {t : FileTree} (wf : t.WellFormed) (path : String) :
    t.at? (t.origin path) = some .directory := by
  rw [origin]
  split
  · rfl
  · exact wf.home

/-- What came of making directories along the steps of a path, when creation starts at its end:
the reason of the walk, if that fails in front of the last step for anything but a missing
piece. -/
def chainOutcome (t : FileTree) (place : Location) (l : List String) : Except FileError Unit :=
  match t.arrive place l.dropLast with
  | .ok _ | .error .notFound => (t.make place l).2.map fun _ => ()
  | .error e => .error e

def createOrHave (t : FileTree) (path : String) : FileTree × Except FileError Unit :=
  match t.createDirectory path with
  | .ok u => (u, .ok ())
  | .error e => (t, if t.isDirectory path then .ok () else .error e)

theorem node_eq (t : FileTree) (path : String) :
    t.node path = (t.resolve path).bind fun there =>
      match t.at? there with
      | some node => .ok node
      | none => .error .notFound := rfl

theorem isDirectory_eq (t : FileTree) (path : String) :
    t.isDirectory path =
      match t.resolve path with
      | .ok there => t.isDirectoryAt there
      | .error _ => false := by
  rcases hresolve : t.resolve path with e | there
  · simp [isDirectory, node_eq, hresolve, Except.bind]
  · rcases hnode : t.at? there with _ | (c | _) <;>
      simp [isDirectory, node_eq, hresolve, Except.bind, isDirectoryAt, hnode]

theorem hasPath_eq (t : FileTree) (path : String) :
    t.hasPath path =
      match t.resolve path with
      | .ok there => (t.at? there).isSome
      | .error _ => false := by
  rcases hresolve : t.resolve path with e | there
  · simp [hasPath, node_eq, hresolve, Except.bind]
  · rcases hnode : t.at? there with _ | node <;>
      simp [hasPath, node_eq, hresolve, Except.bind, hnode]

theorem createDirectory_of_lastStep {t : FileTree} {path last : String} {place : Location}
    (h : t.lastStep path = .ok (place, last)) :
    t.createDirectory path =
      if last = "." || last = ".." then .error .alreadyExists
      else if last.utf8ByteSize > maxNameBytes then .error .nameTooLong
      else if (t.at? (place ++ [last])).isSome then .error .alreadyExists
      else .ok (t.put (place ++ [last]) .directory) := by
  rw [createDirectory, h]
  change (do
    if last = "." || last = ".." then throw FileError.alreadyExists
    if last.utf8ByteSize > maxNameBytes then throw .nameTooLong
    if (t.at? (place ++ [last])).isSome then throw .alreadyExists
    return t.put (place ++ [last]) .directory : Except FileError FileTree) = _
  split_ifs <;> rfl

section Creation

variable {t : FileTree} {path last : String} {front : List String} {place : Location}

/-- At the end of a free way, creating a directory makes the last step. -/
theorem createDirectory_of_arrive (wf : t.WellFormed) (hfault : pathFault? path = none)
    (hlast : LastLeads (pieces path)) (hsteps : steps path = front ++ [last])
    (harrive : t.arrive (t.origin path) front = .ok place)
    (hplace : t.at? place = some .directory) :
    t.createDirectory path ≠ .error .notFound ∧
    t.createOrHave path =
      ((t.makeStep place last).1, (t.makeStep place last).2.map fun _ => ()) := by
  have hstart := lastStep_of_steps t hfault hlast hsteps
  have hresolve := resolve_of_steps t hfault hlast hsteps
  rw [harrive] at hstart hresolve
  have hcreate := createDirectory_of_lastStep hstart
  have hleads : last = ".." ∨ IsName last :=
    Path.isName_of_mem_steps (hsteps ▸ List.mem_append_right _ (List.mem_singleton_self last))
  have hdot : last ≠ "." := by
    rintro rfl
    rcases hleads with h | h
    · exact absurd h (by decide)
    · exact absurd h.not_idle (by decide)
  have hdirectory := isDirectory_eq t path
  rw [hresolve] at hdirectory
  change t.isDirectory path = match t.step place last with
    | .ok there => t.isDirectoryAt there
    | .error _ => false at hdirectory
  rw [createOrHave]
  rcases step_cases hplace hleads with ⟨hup, hstep, hmake⟩ | ⟨hname, hlong, hstep, hmake⟩ |
    ⟨hname, hsize, ⟨hnode, hstep, hmake⟩ | ⟨hnode, hstep, hmake⟩ | ⟨c, hnode, hstep, hmake⟩⟩ <;>
    rw [hstep] at hdirectory <;> rw [hmake]
  · simp [hcreate, hup, hdirectory, isDirectoryAt_iff.mpr (wf.dropLast hplace), Except.map]
  · simp [hcreate, hdot, hname.not_up, hlong, hdirectory, Except.map]
  · simp [hcreate, hdot, hname.not_up, Nat.not_lt.mpr hsize, hnode, Except.map]
  · simp [hcreate, hdot, hname.not_up, Nat.not_lt.mpr hsize, hnode, hdirectory,
      isDirectoryAt_iff.mpr hnode, Except.map]
  · simp [hcreate, hdot, hname.not_up, Nat.not_lt.mpr hsize, hnode, hdirectory,
      isDirectoryAt_of_file hnode, Except.map]

theorem createDirectory_of_arrive_error {e : FileError} (hfault : pathFault? path = none)
    (hlast : LastLeads (pieces path)) (hsteps : steps path = front ++ [last])
    (harrive : t.arrive (t.origin path) front = .error e) :
    t.createDirectory path = .error e ∧ t.isDirectory path = false := by
  have hstart := lastStep_of_steps t hfault hlast hsteps
  have hresolve := resolve_of_steps t hfault hlast hsteps
  rw [harrive] at hstart hresolve
  constructor
  · rw [createDirectory, hstart]
    rfl
  · rw [isDirectory_eq, hresolve]
    rfl

end Creation

theorem createChain_cons_of_found {t : FileTree} {path : String} (above : List String)
    (hne : path ≠ "") (h : t.createDirectory path ≠ .error .notFound) :
    t.createChain (path :: above) = t.createOrHave path := by
  rw [createChain, if_neg hne, createOrHave]
  rcases hcreate : t.createDirectory path with e | u
  · cases e <;> first | exact absurd hcreate h | rfl
  · rfl

theorem createChain_cons_of_missing {t : FileTree} {path : String} (above : List String)
    (hne : path ≠ "") (h : t.createDirectory path = .error .notFound) :
    t.createChain (path :: above) =
      match t.createChain above with
      | (u, .error e) => (u, .error e)
      | (u, .ok ()) => u.createOrHave path := by
  rw [createChain, if_neg hne, h]
  rfl

theorem ne_empty_of_pathFault? {path : String} (h : pathFault? path = none) : path ≠ "" := by
  rintro rfl
  simp [pathFault?] at h

private theorem arrive_dropLast_error {t : FileTree} {place : Location} {front : List String}
    {e : FileError} (h : t.arrive place front = .error e) (s : String) :
    t.arrive place (front ++ [s]) = .error e := by
  rw [arrive, walk_concat, h]
  rfl

private theorem chainOutcome_nil (t : FileTree) {place : Location}
    (hplace : t.at? place = some .directory) : t.chainOutcome place [] = .ok () := by
  rw [chainOutcome, List.dropLast_nil, arrive_nil t hplace]
  rfl

theorem chainOutcome_concat (t : FileTree) (place : Location) (front : List String) (s : String) :
    t.chainOutcome place (front ++ [s]) =
      match t.arrive place front with
      | .ok _ | .error .notFound => (t.make place (front ++ [s])).2.map fun _ => ()
      | .error e => .error e := by
  rw [chainOutcome, List.dropLast_concat]

/-- A way that misses something fails for what creation on it fails for. -/
theorem chainOutcome_of_missing {t : FileTree} {place : Location} {l : List String}
    (h : t.arrive place l = .error .notFound) :
    t.chainOutcome place l = (t.make place l).2.map fun _ => () := by
  rcases List.eq_nil_or_concat' l with rfl | ⟨front, s, rfl⟩
  · rw [chainOutcome, List.dropLast_nil, h]
  · rw [chainOutcome_concat]
    rcases hfront : t.arrive place front with e | there
    · rw [arrive_dropLast_error hfront] at h
      obtain rfl := Except.error.inj h
      rfl
    · rfl

private theorem steps_of_bare {path : String} (h : IsBare path) : steps path = [] := by
  rcases h with rfl | rfl | rfl
  · exact Path.steps_empty
  · simp [steps, Path.pieces_of_no_slash, isIdle]
  · rw [steps, Path.pieces_slash, List.filter_eq_nil_iff]
    simp [isIdle]

private theorem createOrHave_of_bare {t : FileTree} (wf : t.WellFormed) {path : String}
    (h : path = "." ∨ path = "/") :
    t.createDirectory path ≠ .error .notFound ∧ t.createOrHave path = (t, .ok ()) := by
  have hpieces := Path.pieces_slash
  have hdot : pieces "." = ["."] := Path.pieces_of_no_slash (by decide)
  have hfault : pathFault? path = none := by rcases h with rfl | rfl <;> decide
  have horigin := at?_origin wf path
  have hdir := isDirectoryAt_iff.mpr horigin
  have hstart : ∃ place, t.lastStep path = .ok (place, ".") := by
    rcases h with rfl | rfl
    · refine ⟨t.origin ".", ?_⟩
      simp only [lastStep, hfault, hdot]
      change (if t.isDirectoryAt (t.origin ".") then _ else _) = _
      rw [if_pos hdir]
      rfl
    · exact ⟨[], by simp [lastStep, hfault, hpieces]⟩
  have hresolve : t.resolve path = .ok (t.origin path) := by
    rw [resolve, hfault]
    rcases h with rfl | rfl
    · simp [hdot, walk_cons, step_idle hdir, isIdle, Except.bind]
    · simp [hpieces, walk_cons, step_idle hdir, isIdle, Except.bind]
  obtain ⟨place, hstart⟩ := hstart
  have hcreate := createDirectory_of_lastStep hstart
  simp [createOrHave, hcreate, isDirectory_eq, hresolve, hdir]

theorem exists_ancestorsAux_cons (fuel : Nat) (path : String) :
    ∃ above, ancestorsAux fuel path = path :: above := by
  rcases fuel with _ | fuel
  · exact ⟨[], rfl⟩
  · rw [ancestorsAux]
    split
    · exact ⟨_, rfl⟩
    · exact ⟨[], rfl⟩

theorem origin_congr {t u : FileTree} {a b : String} (hhome : u.home = t.home)
    (habs : Path.isAbsolute a = Path.isAbsolute b) : u.origin a = t.origin b := by
  rw [origin, origin, hhome, habs]

theorem directory_of_arrive {t : FileTree} {place there : Location} {l : List String}
    (h : t.arrive place l = .ok there) : t.at? there = some .directory := by
  rw [arrive] at h
  rcases hwalk : t.walk place l with e | p <;> rw [hwalk] at h
  · cases h
  · by_cases hdir : t.isDirectoryAt p = true
    · simp only [Except.bind, hdir, if_true] at h
      obtain rfl := Except.ok.inj h
      exact isDirectoryAt_iff.mp hdir
    · simp [Except.bind, hdir] at h

/-- The end of a chain: the last step of a path, after the steps of its parent. -/
theorem createOrHave_after_make {t u : FileTree} (wf : t.WellFormed) {path last : String}
    {front : List String} {place : Location} (hfault : pathFault? path = none)
    (hlast : LastLeads (pieces path)) (hsteps : steps path = front ++ [last])
    (hmake : t.make (t.origin path) front = (u, .ok place)) :
    u.createDirectory path ≠ .error .notFound ∧
    u.createOrHave path = ((t.make (t.origin path) (steps path)).1,
      (t.make (t.origin path) (steps path)).2.map fun _ => ()) := by
  have hleads : ∀ s ∈ front, s = ".." ∨ IsName s := fun s hs =>
    Path.isName_of_mem_steps (hsteps ▸ List.mem_append_left _ hs)
  obtain ⟨wf', grows, hend⟩ := make_spec wf (at?_origin wf path) hleads hmake
  obtain ⟨hdir, harrive⟩ := hend place rfl
  rw [← origin_congr grows.home rfl] at harrive
  rw [hsteps, make_append_of_ok hmake, make_singleton]
  exact createDirectory_of_arrive wf' hfault hlast hsteps harrive hdir

/-- One link of a chain, when the directories above it come to what their steps make. -/
theorem createChain_cons_eq {t : FileTree} (wf : t.WellFormed) {path last : String}
    {front above : List String} (hfault : pathFault? path = none) (hlast : LastLeads (pieces path))
    (hsteps : steps path = front ++ [last])
    (habove : t.createChain above =
      ((t.make (t.origin path) front).1, t.chainOutcome (t.origin path) front)) :
    t.createChain (path :: above) =
      ((t.make (t.origin path) (steps path)).1, t.chainOutcome (t.origin path) (steps path)) := by
  have hne := ne_empty_of_pathFault? hfault
  have hleads : ∀ s ∈ front, s = ".." ∨ IsName s := fun s hs =>
    Path.isName_of_mem_steps (hsteps ▸ List.mem_append_left _ hs)
  have horigin := at?_origin wf path
  have houtcome := chainOutcome_concat t (t.origin path) front last
  rw [← hsteps] at houtcome
  rcases harrive : t.arrive (t.origin path) front with e | place <;> rw [harrive] at houtcome
  · obtain ⟨hcreate, hdir⟩ := createDirectory_of_arrive_error hfault hlast hsteps harrive
    by_cases he : e = .notFound
    · subst he
      rw [createChain_cons_of_missing above hne hcreate, habove, chainOutcome_of_missing harrive,
        houtcome]
      rcases hmake : t.make (t.origin path) front with ⟨u, e | place⟩
      · rw [hsteps, make_append_of_error hmake]
        rfl
      · exact (createOrHave_after_make wf hfault hlast hsteps hmake).2
    · obtain ⟨e', hmake⟩ := make_of_arrive_error horigin hleads wf he harrive
      have houtcome : t.chainOutcome (t.origin path) (steps path) = .error e := by
        rw [houtcome]
        cases e <;> first | exact absurd rfl he | rfl
      rw [createChain_cons_of_found above hne (by rw [hcreate]; simpa using he), houtcome, hsteps,
        make_append_of_error hmake, createOrHave, hcreate, hdir]
      rfl
  · have hmake := make_of_arrive horigin hleads wf harrive
    obtain ⟨hfound, hhave⟩ := createOrHave_after_make wf hfault hlast hsteps hmake
    rw [createChain_cons_of_found above hne hfound, hhave, houtcome]

/-- A chain of directories leaves the tree that its steps make. -/
theorem createChain_ancestorsAux {t : FileTree} (wf : t.WellFormed) (fuel : Nat) (path : String)
    (hfuel : path.length ≤ fuel) (hfault : path = "" ∨ pathFault? path = none)
    (hends : IsBare path ∨ LastLeads (pieces path)) :
    t.createChain (ancestorsAux fuel path) =
      ((t.make (t.origin path) (steps path)).1, t.chainOutcome (t.origin path) (steps path)) := by
  induction fuel generalizing path with
  | zero =>
      obtain rfl : path = "" := by simpa using hfuel
      simp [ancestorsAux, createChain, make, chainOutcome_nil t (at?_origin wf "")]
  | succ fuel ih =>
      rcases hends with hbare | hlast
      · obtain ⟨above, habove⟩ := exists_ancestorsAux_cons (fuel + 1) path
        have hsteps : steps path = [] := steps_of_bare hbare
        have houtcome := chainOutcome_nil t (at?_origin wf path)
        rw [habove, hsteps, houtcome]
        rcases hbare with rfl | hbare
        · rfl
        · obtain ⟨hfound, hhave⟩ := createOrHave_of_bare wf hbare
          have hne : path ≠ "" := by rcases hbare with rfl | rfl <;> decide
          rw [createChain_cons_of_found above hne hfound, hhave]
          rfl
      · obtain ⟨front, last, -, -, hsteps⟩ := steps_concat hlast
        have hne : path ≠ "" := by
          rintro rfl
          simp at hsteps
        have hfault : pathFault? path = none := hfault.resolve_left hne
        obtain ⟨parent, hparent, isParent⟩ := Path.exists_parent hlast
        have hfront : steps parent = front.filter (!isIdle ·) := by
          rw [isParent.steps_eq, hsteps, List.dropLast_concat]
        have horigin : t.origin parent = t.origin path := origin_congr rfl isParent.isAbsolute_eq
        have habove := ih parent (Nat.le_of_lt_succ (isParent.length_lt.trans_le hfuel))
          (Classical.or_iff_not_imp_left.mpr fun h =>
            pathFault?_of_isPrefix isParent.isPrefix h hfault) isParent.ends
        rw [hfront, horigin] at habove
        rw [ancestorsAux, hparent]
        generalize front.filter (!isIdle ·) = front at hsteps habove
        exact createChain_cons_eq wf hfault hlast hsteps habove

/-- All steps of a path are made, whatever its end. -/
theorem createDirectories_eq {t : FileTree} (wf : t.WellFormed) {path : String}
    (hfault : pathFault? path = none) (hlast : LastLeads (pieces path)) :
    t.createDirectories path =
      ((t.make (t.origin path) (steps path)).1, t.chainOutcome (t.origin path) (steps path)) :=
  createChain_ancestorsAux wf path.length path (Nat.le_refl _) (.inr hfault) (.inr hlast)

end CInventory.FileTree
