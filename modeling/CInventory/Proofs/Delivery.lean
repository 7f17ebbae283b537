import Mathlib
import CInventory.Proofs.Directories

/-!
# Deliveries

A delivery makes the directories along a list of steps and puts files into the last one. What it
does below a place depends only on what stands there, so deliveries whose steps part at some
names do not disturb each other: they can change places, and neither changes what comes of the
other. The steps in front of the parting are the same for both, and the second finds them made.
-/

namespace CInventory.FileTree

open CInventory.Path (IsName)

/-- A file for a directory: the path that it is written to, its name there and its content. -/
structure Parcel where
  path : String
  name : String
  content : ByteArray

/-- Put a file into a directory, unless a directory has its name. -/
def putParcel (t : FileTree) (place : Location) (parcel : Parcel) : Except FileError FileTree :=
  match pathFault? parcel.path with
  | some fault => .error fault
  | none =>
    match t.at? (place ++ [parcel.name]) with
    | some .directory => .error .isDirectory
    | _ => .ok (t.put (place ++ [parcel.name]) (.file parcel.content))

inductive DeliveryError where
  /-- The directory cannot be had. -/
  | blocked (e : FileError)
  | unwritten (path : String) (e : FileError)

/-- Put files into a directory, up to the first that cannot be put there. -/
def putParcels (t : FileTree) (place : Location) :
    List Parcel → FileTree × Except DeliveryError Unit
  | [] => (t, .ok ())
  | parcel :: rest =>
    match t.putParcel place parcel with
    | .ok u => u.putParcels place rest
    | .error e => (t, .error (.unwritten parcel.path e))

def deliver (t : FileTree) (place : Location) (steps : List String) (parcels : List Parcel) :
    FileTree × Except DeliveryError Unit :=
  match t.make place steps with
  | (u, .ok there) => u.putParcels there parcels
  | (u, .error e) => (u, .error (.blocked e))

theorem deliver_cons (t : FileTree) (place : Location) (s : String) (steps : List String)
    (parcels : List Parcel) :
    t.deliver place (s :: steps) parcels =
      match t.makeStep place s with
      | (u, .ok there) => u.deliver there steps parcels
      | (u, .error e) => (u, .error (.blocked e)) := by
  rw [deliver, make]
  rcases t.makeStep place s with ⟨u, e | there⟩ <;> rfl

theorem putParcels_append (t : FileTree) (place : Location) (front back : List Parcel) :
    t.putParcels place (front ++ back) =
      match t.putParcels place front with
      | (u, .ok ()) => u.putParcels place back
      | (u, .error e) => (u, .error e) := by
  induction front generalizing t with
  | nil => rfl
  | cons parcel front ih =>
      rw [List.cons_append, putParcels, putParcels]
      rcases t.putParcel place parcel with e | u
      · rfl
      · exact ih u

/-! ## What deliveries keep -/

theorem putParcel_cases {t u : FileTree} {place : Location} {parcel : Parcel}
    (h : t.putParcel place parcel = .ok u) :
    t.at? (place ++ [parcel.name]) ≠ some .directory ∧
      u = t.put (place ++ [parcel.name]) (.file parcel.content) := by
  rw [putParcel] at h
  split at h
  · cases h
  · split at h
    · cases h
    · next hnode => exact ⟨hnode, (Except.ok.inj h).symm⟩

theorem pathFault?_of_putParcel {t u : FileTree} {place : Location} {parcel : Parcel}
    (h : t.putParcel place parcel = .ok u) : pathFault? parcel.path = none := by
  rw [putParcel] at h
  split at h
  · cases h
  · assumption

/-- A way that leads to a directory stays free. -/
theorem arrive_ok_of_grows {names : List String} {t u : FileTree} (grows : Grows names t u)
    {place there : Location} {l : List String} (h : t.arrive place l = .ok there) :
    u.arrive place l = .ok there := by
  induction l generalizing place with
  | nil =>
      by_cases hplace : t.isDirectoryAt place = true
      · have hnode := isDirectoryAt_iff.mp hplace
        rw [arrive_nil t hnode] at h
        rw [arrive_nil u (grows.directory hnode), h]
      · rw [arrive_of_not_directory (by simpa using hplace)] at h
        cases h
  | cons s l ih =>
      rw [arrive_cons] at h ⊢
      rcases hstep : t.step place s with e | next <;> rw [hstep] at h
      · cases h
      · -- A step that succeeds starts in a directory.
        have hplace : t.isDirectoryAt place = true := by
          by_contra hplace
          rw [step_of_not_directory (by simpa using hplace)] at hstep
          cases hstep
        have hlater := step_of_grows grows (isDirectoryAt_iff.mp hplace) (s := s) (by simp [hstep])
        rw [hlater, hstep]
        exact ih h

theorem putParcels_spec {t : FileTree} (wf : t.WellFormed) {place : Location}
    (hplace : t.at? place = some .directory) {parcels : List Parcel}
    (hnames : ∀ parcel ∈ parcels, IsName parcel.name ∧ parcel.name.utf8ByteSize ≤ maxNameBytes) :
    (t.putParcels place parcels).1.WellFormed ∧
      Grows (parcels.map Parcel.name) t (t.putParcels place parcels).1 := by
  induction parcels generalizing t with
  | nil => exact ⟨wf, Grows.refl _ _⟩
  | cons parcel rest ih =>
      rw [putParcels]
      rcases hput : t.putParcel place parcel with e | u
      · exact ⟨wf, Grows.refl _ _⟩
      · obtain ⟨hnode, rfl⟩ := putParcel_cases hput
        obtain ⟨hname, hsize⟩ := hnames parcel List.mem_cons_self
        have hgrows : Grows ((parcel :: rest).map Parcel.name) t
            (t.put (place ++ [parcel.name]) (.file parcel.content)) :=
          Grows.put_file _ List.mem_cons_self hnode
        have hwf : (t.put (place ++ [parcel.name]) (.file parcel.content)).WellFormed :=
          wf.put hplace hname hsize fun h => absurd h hnode
        obtain ⟨hwf', hgrows'⟩ := ih hwf (hgrows.directory hplace) fun parcel' h =>
          hnames parcel' (List.mem_cons_of_mem _ h)
        exact ⟨hwf', hgrows.trans (hgrows'.mono (List.subset_cons_self _ _))⟩

theorem deliver_spec {t : FileTree} (wf : t.WellFormed) {place : Location}
    (hplace : t.at? place = some .directory) {steps : List String}
    (hsteps : ∀ s ∈ steps, s = ".." ∨ IsName s) {parcels : List Parcel}
    (hnames : ∀ parcel ∈ parcels, IsName parcel.name ∧ parcel.name.utf8ByteSize ≤ maxNameBytes) :
    (t.deliver place steps parcels).1.WellFormed ∧
      Grows (parcels.map Parcel.name) t (t.deliver place steps parcels).1 := by
  rw [deliver]
  rcases hmake : t.make place steps with ⟨u, e | there⟩
  · obtain ⟨wf', grows, -⟩ := make_spec wf hplace hsteps hmake
    exact ⟨wf', grows.mono (List.nil_subset _)⟩
  · obtain ⟨wf', grows, hend⟩ := make_spec wf hplace hsteps hmake
    obtain ⟨wf'', grows'⟩ := putParcels_spec wf' (hend there rfl).1 hnames
    exact ⟨wf'', (grows.mono (List.nil_subset _)).trans grows'⟩

/-! ## Directories stay

No assumption on the tree is needed for this part. -/

private theorem makeStep_directory {t : FileTree} {p : Location} (place : Location) (s : String)
    (h : t.at? p = some .directory) : (t.makeStep place s).1.at? p = some .directory := by
  rw [makeStep]
  split
  · exact h
  · split
    · exact h
    · split
      · exact h
      · exact h
      · rw [at?_put]
        split
        · rfl
        · exact h

private theorem putParcels_directory {t : FileTree} {place p : Location} (parcels : List Parcel)
    (h : t.at? p = some .directory) : (t.putParcels place parcels).1.at? p = some .directory := by
  induction parcels generalizing t with
  | nil => exact h
  | cons parcel rest ih =>
      rw [putParcels]
      rcases hput : t.putParcel place parcel with e | u
      · exact h
      · obtain ⟨hnode, rfl⟩ := putParcel_cases hput
        apply ih
        rw [at?_put_of_ne]
        · exact h
        · rintro rfl
          exact hnode h

theorem deliver_directory {t : FileTree} {place p : Location} (steps : List String)
    (parcels : List Parcel) (h : t.at? p = some .directory) :
    (t.deliver place steps parcels).1.at? p = some .directory := by
  induction steps generalizing t place with
  | nil => exact putParcels_directory parcels h
  | cons s steps ih =>
      rw [deliver_cons]
      have hstep := makeStep_directory place s h
      rcases hmake : t.makeStep place s with ⟨u, e | there⟩ <;> rw [hmake] at hstep
      · exact hstep
      · exact ih hstep

/-- A step that was made is found by everybody who comes later. -/
theorem makeStep_again {t u v : FileTree} {place there : Location} {s : String}
    (h : t.makeStep place s = (u, .ok there))
    (hkeep : ∀ p, u.at? p = some .directory → v.at? p = some .directory) :
    v.makeStep place s = (v, .ok there) := by
  rw [makeStep] at h ⊢
  split at h
  · next hup =>
      rw [if_pos hup, (Prod.mk.inj h).2]
  · next hup =>
      rw [if_neg hup]
      split at h
      · cases (Prod.mk.inj h).2
      · next hsize =>
          rw [if_neg hsize]
          have hdir : v.at? (place ++ [s]) = some .directory ∧ there = place ++ [s] := by
            split at h
            · next hnode =>
                obtain ⟨rfl, heq⟩ := Prod.mk.inj h
                exact ⟨hkeep _ hnode, (Except.ok.inj heq).symm⟩
            · cases (Prod.mk.inj h).2
            · obtain ⟨rfl, heq⟩ := Prod.mk.inj h
              exact ⟨hkeep _ (at?_put_self _ _ _ _), (Except.ok.inj heq).symm⟩
          rw [hdir.1, hdir.2]

private theorem makeStep_error {t u : FileTree} {place : Location} {s : String} {e : FileError}
    (h : t.makeStep place s = (u, .error e)) : u = t := by
  rw [makeStep] at h
  split at h
  · cases (Prod.mk.inj h).2
  · split at h
    · exact (Prod.mk.inj h).1.symm
    · split at h
      · cases (Prod.mk.inj h).2
      · exact (Prod.mk.inj h).1.symm
      · cases (Prod.mk.inj h).2

/-! ## Work below one place -/

def AgreeBelow (root : Location) (t u : FileTree) : Prop :=
  ∀ p, root <+: p → t.entries[p]? = u.entries[p]?

/-- Work that changes nothing outside a place and depends on nothing outside it. -/
structure LocalTo {ρ : Type} (root : Location) (f : FileTree → FileTree × ρ) : Prop where
  home : ∀ t, (f t).1.home = t.home
  outside : ∀ t p, ¬ root <+: p → (f t).1.entries[p]? = t.entries[p]?
  inside : ∀ t u, AgreeBelow root t u → AgreeBelow root (f t).1 (f u).1 ∧ (f t).2 = (f u).2

namespace LocalTo

variable {ρ σ : Type} {root : Location}

theorem pure (r : ρ) : LocalTo root fun t => (t, r) :=
  ⟨fun _ => rfl, fun _ _ _ => rfl, fun _ _ h => ⟨h, rfl⟩⟩

theorem bind {f : FileTree → FileTree × ρ} {g : ρ → FileTree → FileTree × σ}
    (hf : LocalTo root f) (hg : ∀ t, LocalTo root (g (f t).2)) :
    LocalTo root fun t => g (f t).2 (f t).1 where
  home t := ((hg t).home _).trans (hf.home t)
  outside t p hp := ((hg t).outside _ p hp).trans (hf.outside t p hp)
  inside t u h := by
    obtain ⟨hagree, hvalue⟩ := hf.inside t u h
    rw [hvalue]
    exact (hg u).inside _ _ hagree

theorem ext_of_entries {t u : FileTree} (hhome : t.home = u.home)
    (h : ∀ p : Location, t.entries[p]? = u.entries[p]?) : t = u := by
  rcases t with ⟨a, p⟩
  rcases u with ⟨b, q⟩
  obtain rfl : p = q := hhome
  obtain rfl : a = b := Std.ExtTreeMap.ext_getElem? h
  rfl

/-- Work below two places of which neither is below the other can change places. -/
theorem comm {a b : Location} (hab : ¬ a <+: b) (hba : ¬ b <+: a)
    {f : FileTree → FileTree × ρ} {g : FileTree → FileTree × σ} (hf : LocalTo a f)
    (hg : LocalTo b g) (t : FileTree) :
    (g (f t).1).1 = (f (g t).1).1 ∧ (g (f t).1).2 = (g t).2 := by
  have hapart : ∀ p : Location, a <+: p → ¬ b <+: p := fun p ha hb =>
    (List.prefix_or_prefix_of_prefix ha hb).elim hab hba
  have hgf : AgreeBelow b (f t).1 t := fun p hp => hf.outside t p fun ha => hapart p ha hp
  have hfg : AgreeBelow a (g t).1 t := fun p hp => hg.outside t p (hapart p hp)
  refine ⟨ext_of_entries ?_ ?_, (hg.inside _ _ hgf).2⟩
  · rw [hg.home, hf.home, hf.home, hg.home]
  · intro p
    by_cases ha : a <+: p
    · rw [hg.outside _ _ (hapart p ha)]
      exact ((hf.inside _ _ hfg).1 p ha).symm
    · by_cases hb : b <+: p
      · rw [hf.outside _ _ ha]
        exact (hg.inside _ _ hgf).1 p hb
      · rw [hg.outside _ _ hb, hf.outside _ _ ha, hf.outside _ _ ha, hg.outside _ _ hb]

end LocalTo

theorem AgreeBelow.at?_eq {root p : Location} {t u : FileTree} (h : AgreeBelow root t u)
    (hroot : root ≠ []) (hp : root <+: p) : t.at? p = u.at? p := by
  have hne : p ≠ [] := by
    rintro rfl
    exact hroot (List.prefix_nil.mp hp)
  simp [at?, hne, h p hp]

theorem AgreeBelow.put {root : Location} {t u : FileTree} (h : AgreeBelow root t u)
    (place : Location) (node : Node) : AgreeBelow root (t.put place node) (u.put place node) := by
  intro p hp
  simp only [FileTree.put, Std.ExtTreeMap.getElem?_insert, h p hp]

theorem entries_put_of_outside (t : FileTree) {root place p : Location} (node : Node)
    (hplace : root <+: place) (hp : ¬ root <+: p) :
    (t.put place node).entries[p]? = t.entries[p]? := by
  rw [FileTree.put, Std.ExtTreeMap.getElem?_insert, if_neg]
  rw [Std.compare_eq_iff_eq]
  rintro rfl
  exact hp hplace

private theorem localTo_makeStep {root place : Location} {s : String} (hroot : root ≠ [])
    (hplace : root <+: place ++ [s]) (hs : s ≠ "..") :
    LocalTo root fun t => t.makeStep place s := by
  by_cases hsize : s.utf8ByteSize > maxNameBytes
  · have heq : ∀ t : FileTree, t.makeStep place s = (t, .error .nameTooLong) := fun t => by
      rw [makeStep, if_neg hs, if_pos hsize]
    simp only [heq]
    exact LocalTo.pure _
  · have heq := fun t : FileTree => makeStep_of_name t place hs hsize
    refine ⟨fun t => ?_, fun t p hp => ?_, fun t u h => ?_⟩
    · simp only [heq]
      split <;> rfl
    · simp only [heq]
      split
      · rfl
      · rfl
      · exact entries_put_of_outside t _ hplace hp
    · simp only [heq, h.at?_eq hroot hplace]
      split
      · exact ⟨h, rfl⟩
      · exact ⟨h, rfl⟩
      · exact ⟨h.put _ _, rfl⟩

private theorem localTo_putParcel {root place : Location} (hroot : root ≠ [])
    (hplace : root <+: place)
    (parcel : Parcel) : LocalTo root fun t => t.putParcels place [parcel] := by
  have hinside : root <+: place ++ [parcel.name] := hplace.trans (List.prefix_append _ _)
  rcases hfault : pathFault? parcel.path with _ | fault
  · have heq : ∀ t : FileTree, t.putParcels place [parcel] =
        match t.at? (place ++ [parcel.name]) with
        | some .directory => (t, .error (.unwritten parcel.path .isDirectory))
        | _ => (t.put (place ++ [parcel.name]) (.file parcel.content), .ok ()) := fun t => by
      simp only [putParcels, putParcel, hfault]
      rcases t.at? (place ++ [parcel.name]) with _ | (c | _) <;> rfl
    refine ⟨fun t => ?_, fun t p hp => ?_, fun t u h => ?_⟩
    · simp only [heq]
      split <;> rfl
    · simp only [heq]
      split
      · rfl
      · exact entries_put_of_outside t _ hinside hp
    · simp only [heq, h.at?_eq hroot hinside]
      split
      · exact ⟨h, rfl⟩
      · exact ⟨h.put _ _, rfl⟩
  · have heq : ∀ t : FileTree, t.putParcels place [parcel] =
        (t, .error (.unwritten parcel.path fault)) := fun t => by
      simp only [putParcels, putParcel, hfault]
    simp only [heq]
    exact LocalTo.pure _

private theorem localTo_putParcels {root place : Location} (hroot : root ≠ [])
    (hplace : root <+: place)
    (parcels : List Parcel) : LocalTo root fun t => t.putParcels place parcels := by
  induction parcels with
  | nil => exact LocalTo.pure _
  | cons parcel rest ih =>
      let more : Except DeliveryError Unit → FileTree → FileTree × Except DeliveryError Unit
        | .ok (), t => t.putParcels place rest
        | .error e, t => (t, .error e)
      have heq : ∀ t : FileTree, t.putParcels place (parcel :: rest) =
          more (t.putParcels place [parcel]).2 (t.putParcels place [parcel]).1 := fun t => by
        rw [← List.singleton_append, putParcels_append]
        rcases t.putParcels place [parcel] with ⟨u, e | ⟨⟩⟩ <;> rfl
      simp only [heq]
      apply (localTo_putParcel hroot hplace parcel).bind
      intro t
      rcases (t.putParcels place [parcel]).2 with e | ⟨⟩
      · exact LocalTo.pure _
      · exact ih

private theorem makeStep_place {t u : FileTree} {place there : Location} {s : String}
    (hs : s ≠ "..") (h : t.makeStep place s = (u, .ok there)) : there = place ++ [s] := by
  rw [makeStep, if_neg hs] at h
  split at h
  · cases (Prod.mk.inj h).2
  · split at h
    · exact (Except.ok.inj (Prod.mk.inj h).2).symm
    · cases (Prod.mk.inj h).2
    · exact (Except.ok.inj (Prod.mk.inj h).2).symm

theorem localTo_deliver_cons {root place : Location} {s : String} {steps : List String}
    {parcels : List Parcel} (hroot : root ≠ []) (hplace : root <+: place ++ [s]) (hs : s ≠ "..")
    (hrest : LocalTo root fun t => t.deliver (place ++ [s]) steps parcels) :
    LocalTo root fun t => t.deliver place (s :: steps) parcels := by
  let more : Except FileError Location → FileTree → FileTree × Except DeliveryError Unit
    | .ok there, t => t.deliver there steps parcels
    | .error e, t => (t, .error (.blocked e))
  have heq : ∀ t : FileTree, t.deliver place (s :: steps) parcels =
      more (t.makeStep place s).2 (t.makeStep place s).1 := fun t => by
    rw [deliver_cons]
    rcases t.makeStep place s with ⟨u, e | there⟩ <;> rfl
  simp only [heq]
  apply (localTo_makeStep hroot hplace hs).bind
  intro t
  rcases hstep : t.makeStep place s with ⟨u, e | there⟩
  · exact LocalTo.pure _
  · rw [makeStep_place hs hstep]
    exact hrest

/-- A delivery whose steps are names stays below its first one. -/
theorem localTo_deliver {root place : Location} {s : String} {steps : List String}
    (parcels : List Parcel) (hroot : root ≠ []) (hplace : root <+: place ++ [s])
    (hsteps : ∀ s' ∈ s :: steps, s' ≠ "..") :
    LocalTo root fun t => t.deliver place (s :: steps) parcels := by
  have hs : s ≠ ".." := hsteps s List.mem_cons_self
  induction steps generalizing place s with
  | nil => exact localTo_deliver_cons hroot hplace hs (localTo_putParcels hroot hplace parcels)
  | cons s' steps ih =>
      have hrest : ∀ s'' ∈ s' :: steps, s'' ≠ ".." := fun s'' h =>
        hsteps s'' (List.mem_cons_of_mem _ h)
      exact localTo_deliver_cons hroot hplace hs
        (ih (hplace.trans (List.prefix_append _ _)) hrest (hrest s' List.mem_cons_self))

/-- Deliveries whose steps part at two names can change places, and the first makes no difference
to what comes of the second. -/
theorem deliver_comm (t : FileTree) (place : Location) (common : List String) {a b : String}
    {as bs : List String} (hab : a ≠ b) (has : ∀ s ∈ a :: as, s ≠ "..")
    (hbs : ∀ s ∈ b :: bs, s ≠ "..") (p q : List Parcel) :
    ((t.deliver place (common ++ a :: as) p).1.deliver place (common ++ b :: bs) q).1 =
      ((t.deliver place (common ++ b :: bs) q).1.deliver place (common ++ a :: as) p).1 ∧
    ((t.deliver place (common ++ a :: as) p).1.deliver place (common ++ b :: bs) q).2 =
      (t.deliver place (common ++ b :: bs) q).2 := by
  induction common generalizing t place with
  | nil =>
      have hapart : ∀ {x y : String}, x ≠ y → ¬ place ++ [x] <+: place ++ [y] := by
        intro x y hxy h
        rw [List.prefix_append_right_inj] at h
        exact hxy (by simpa using h)
      exact LocalTo.comm (hapart hab) (hapart hab.symm)
        (localTo_deliver p (by simp) (List.prefix_refl _) has)
        (localTo_deliver q (by simp) (List.prefix_refl _) hbs) t
  | cons c common ih =>
      simp only [List.cons_append, deliver_cons]
      rcases hstep : t.makeStep place c with ⟨u, e | there⟩
      · obtain rfl := makeStep_error hstep
        simp only [hstep]
        exact ⟨trivial, trivial⟩
      · -- Both find the step made that the first of them takes.
        have hagain : ∀ steps parcels, (u.deliver there steps parcels).1.makeStep place c =
            ((u.deliver there steps parcels).1, .ok there) := fun steps parcels =>
          makeStep_again hstep fun _ => deliver_directory steps parcels
        simp only [hagain]
        exact ih u there

end CInventory.FileTree
