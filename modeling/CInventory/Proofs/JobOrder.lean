import Mathlib
import CInventory.Proofs.CatalogJobs

/-!
# Files of a batch in any order

The catalogs of two sources go to directories that part at some name, so their deliveries change
places. A file that is cataloged after others comes to the same as at the start, and the tree
after some files depends on which they are, not on their order. One thing shows the order: where
the way to the output directory leads through a directory that is missing and back out of it, the
first file makes that directory, and the reason for which an output directory is unavailable may
differ from then on.
-/

namespace CInventory

open Diagnostic Output
open CInventory.Path (IsName steps pieces LastLeads)

/-- Errors that are the same; where `loose` holds, up to the reason for which an output directory
is unavailable. -/
inductive CatalogError.Alike (loose : Prop) : CatalogError → CatalogError → Prop
  | same (e : CatalogError) : Alike loose e e
  | reason (h : loose) (path reason reason' : String) (kept : Catalog) :
      Alike loose (.output (.directoryUnavailable path reason) kept)
        (.output (.directoryUnavailable path reason') kept)

namespace CatalogError.Alike

variable {loose : Prop} {a b c : CatalogError}

theorem symm (h : Alike loose a b) : Alike loose b a := by
  cases h with
  | same => exact .same _
  | reason h => exact .reason h _ _ _ _

theorem trans (h : Alike loose a b) (h' : Alike loose b c) : Alike loose a c := by
  cases h with
  | same => exact h'
  | reason h =>
      cases h' with
      | same => exact .reason h _ _ _ _
      | reason => exact .reason h _ _ _ _

theorem eq (hloose : ¬ loose) (h : Alike loose a b) : a = b := by
  cases h with
  | same => rfl
  | reason h => exact absurd h hloose

end CatalogError.Alike

namespace Batch

inductive Alike (loose : Prop) : Except CatalogError Success → Except CatalogError Success → Prop
  | ok (s : Success) : Alike loose (.ok s) (.ok s)
  | error {e e' : CatalogError} (h : e.Alike loose e') : Alike loose (.error e) (.error e')

namespace Alike

variable {loose : Prop} {a b c : Except CatalogError Success}

theorem refl (loose : Prop) (a : Except CatalogError Success) : Alike loose a a := by
  cases a with
  | ok s => exact .ok s
  | error e => exact .error (.same e)

theorem symm (h : Alike loose a b) : Alike loose b a := by
  cases h with
  | ok s => exact .ok s
  | error h => exact .error h.symm

theorem trans (h : Alike loose a b) (h' : Alike loose b c) : Alike loose a c := by
  cases h with
  | ok => exact h'
  | error h =>
      cases h' with
      | error h' => exact .error (h.trans h')

end Alike

/-- The way to the output directory leads through a directory that is missing and back out of
it. -/
def Config.OutputDetours (config : Config) (t : FileTree) : Prop :=
  t.Detour (t.origin config.preferences.output.directory)
    (steps config.preferences.output.directory)

/-- Files of which none leads to another one. -/
structure Independent (t : FileTree) (directory : String) (order : List Job) : Prop where
  directory_ne : directory ≠ ""
  source : ∀ job ∈ order, ∃ names, IsSourceBelow t directory job.path names
  apart : order.Pairwise fun j k => Apart j.path k.path

namespace Independent

variable {t : FileTree} {directory : String} {order order' : List Job}

theorem perm (h : Independent t directory order) (hperm : order.Perm order') :
    Independent t directory order' where
  directory_ne := h.directory_ne
  source job hjob := h.source job (hperm.mem_iff.mpr hjob)
  apart := h.apart.perm hperm Apart.symm

theorem sublist (h : Independent t directory order) (hsub : order'.Sublist order) :
    Independent t directory order' where
  directory_ne := h.directory_ne
  source job hjob := h.source job (hsub.subset hjob)
  apart := h.apart.sublist hsub

private theorem apart_of_ne (h : Independent t directory order) {j k : Job} (hj : j ∈ order)
    (hk : k ∈ order) (hne : j ≠ k) : Apart j.path k.path := by
  have : Std.Symm fun j k : Job => Apart j.path k.path := ⟨fun _ _ h => h.symm⟩
  exact h.apart.forall hj hk hne

end Independent

/-! ## Ways that part -/

private theorem exists_parting {l l' : List String} (h : ¬ l <+: l') (h' : ¬ l' <+: l) :
    ∃ common a as b bs, l = common ++ a :: as ∧ l' = common ++ b :: bs ∧ a ≠ b := by
  induction l generalizing l' with
  | nil => exact absurd (List.nil_prefix) h
  | cons a as ih =>
      rcases l' with _ | ⟨b, bs⟩
      · exact absurd (List.nil_prefix) h'
      · by_cases hab : a = b
        · subst hab
          rw [List.cons_prefix_cons] at h h'
          obtain ⟨common, c, cs, d, ds, rfl, rfl, hcd⟩ :=
            ih (fun hp => h ⟨rfl, hp⟩) (fun hp => h' ⟨rfl, hp⟩)
          exact ⟨a :: common, c, cs, d, ds, rfl, rfl, hcd⟩
        · exact ⟨[], a, as, b, bs, rfl, rfl, hab⟩

section Deliveries

variable {t u : FileTree} {directory f g : String} {names names' : Location}

theorem IsSourceBelow.names_apart (src : IsSourceBelow t directory f names)
    (src' : IsSourceBelow t directory g names') (apart : Apart f g) :
    ¬ names <+: names' ∧ ¬ names' <+: names := by
  rw [Apart, src.steps_eq, src'.steps_eq, List.prefix_append_right_inj,
    List.prefix_append_right_inj] at apart
  exact apart

/-- Deliveries along the names of two sources change places, and what comes of the second is what
would come of it alone. -/
theorem IsSourceBelow.deliver_comm (src : IsSourceBelow t directory f names)
    (src' : IsSourceBelow t directory g names') (apart : Apart f g) (u : FileTree)
    (place : Location) (front : List String) (p q : List FileTree.Parcel) :
    ((u.deliver place (front ++ names) p).1.deliver place (front ++ names') q).1 =
      ((u.deliver place (front ++ names') q).1.deliver place (front ++ names) p).1 ∧
    ((u.deliver place (front ++ names) p).1.deliver place (front ++ names') q).2 =
      (u.deliver place (front ++ names') q).2 := by
  obtain ⟨hnames, hnames'⟩ := src.names_apart src' apart
  obtain ⟨common, a, as, b, bs, rfl, rfl, hab⟩ := exists_parting hnames hnames'
  rw [← List.append_assoc, ← List.append_assoc]
  exact FileTree.deliver_comm u place (front ++ common) hab
    (fun s hs => (src.isName s (List.mem_append_right _ hs)).not_up)
    (fun s hs => (src'.isName s (List.mem_append_right _ hs)).not_up) p q

end Deliveries

/-! ## Trees after some files -/

section Shipping

variable {host : Host} {config : Config} {directory : String} {t : FileTree}

/-- The tree after one more file, when the batch starts with `t`. -/
def send (host : Host) (config : Config) (directory : String) (t u : FileTree) (job : Job) :
    FileTree :=
  ship (t.origin config.preferences.output.directory) (consignment host config directory t job) u

def sendAll (host : Host) (config : Config) (directory : String) (t : FileTree)
    (order : List Job) : FileTree :=
  order.foldl (send host config directory t) t

theorem sendAll_concat (order : List Job) (job : Job) :
    sendAll host config directory t (order ++ [job]) =
      send host config directory t (sendAll host config directory t order) job := by
  rw [sendAll, List.foldl_append]
  rfl

theorem IsSourceBelow.steps_writer {job : Job} {names : Location}
    (src : IsSourceBelow t directory job.path names) (hdirectory : directory ≠ "")
    (config : Config) :
    steps (writerFor config directory job.path).directory =
      steps config.preferences.output.directory ++ names :=
  (src.leadsBelow hdirectory config.preferences.output.directory).steps_eq

/-- What a file sends: nothing, or a delivery along its names below the output directory. -/
theorem IsSourceBelow.send_cases {job : Job} {names : Location}
    (src : IsSourceBelow t directory job.path names) (hdirectory : directory ≠ "")
    (host : Host) (config : Config) :
    (∀ u, send host config directory t u job = u) ∨
    ∃ parcels : List FileTree.Parcel, (∀ p ∈ parcels, p.name ∈ FileWriter.outputNames) ∧
      ∀ u, send host config directory t u job =
        (u.deliver (t.origin config.preferences.output.directory)
          (steps config.preferences.output.directory ++ names) parcels).1 := by
  simp only [send, consignment, src.steps_writer hdirectory config]
  cases outcome (Catalog.ofFile host config.preferences t job.path job.id) with
  | error e => exact .inl fun u => rfl
  | ok catalog =>
      dsimp only
      split
      · exact .inr ⟨_, fun p hp => FileWriter.name_mem_outputNames hp, fun u => rfl⟩
      · exact .inl fun u => rfl

theorem send_comm {j k : Job} {names names' : Location}
    (src : IsSourceBelow t directory j.path names)
    (src' : IsSourceBelow t directory k.path names') (hdirectory : directory ≠ "")
    (apart : Apart j.path k.path) (u : FileTree) :
    send host config directory t (send host config directory t u j) k =
      send host config directory t (send host config directory t u k) j := by
  rcases src.send_cases hdirectory host config with hj | ⟨p, -, hj⟩
  · rw [hj, hj]
  · rcases src'.send_cases hdirectory host config with hk | ⟨q, -, hk⟩
    · rw [hk, hk]
    · rw [hj, hk, hj, hk]
      exact (src.deliver_comm src' apart u _ _ p q).1

/-- The order of the files does not show in the tree. -/
theorem Independent.sendAll_perm {order order' : List Job} (ind : Independent t directory order)
    (hperm : order.Perm order') :
    sendAll host config directory t order = sendAll host config directory t order' := by
  refine hperm.foldl_eq' (fun j hj k hk u => ?_) t
  by_cases hjk : j = k
  · rw [hjk]
  · obtain ⟨names, src⟩ := ind.source j hj
    obtain ⟨names', src'⟩ := ind.source k hk
    exact send_comm src src' ind.directory_ne (ind.apart_of_ne hj hk hjk) u

theorem Independent.sendAll_spec {order : List Job} (ind : Independent t directory order)
    (wf : t.WellFormed) (host : Host) (config : Config) :
    (sendAll host config directory t order).WellFormed ∧
      FileTree.Grows FileWriter.outputNames t (sendAll host config directory t order) := by
  induction order using List.reverseRecOn with
  | nil => exact ⟨wf, FileTree.Grows.refl _ _⟩
  | append_singleton order job ih =>
      obtain ⟨wf', grows⟩ := ih (ind.sublist (List.sublist_append_left _ _))
      obtain ⟨names, src⟩ := ind.source job (by simp)
      rw [sendAll_concat]
      rcases src.send_cases ind.directory_ne host config with hsend | ⟨parcels, hparcels, hsend⟩
      · rw [hsend]
        exact ⟨wf', grows⟩
      · rw [hsend]
        have hplace := grows.directory
          (FileTree.at?_origin wf config.preferences.output.directory)
        have hsteps : ∀ s ∈ steps config.preferences.output.directory ++ names,
            s = ".." ∨ IsName s := by
          intro s hs
          rcases List.mem_append.mp hs with hs | hs
          · exact Path.isName_of_mem_steps hs
          · exact .inr (src.isName s hs)
        obtain ⟨wf'', grows'⟩ := FileTree.deliver_spec wf' hplace hsteps fun p hp =>
          FileWriter.isName_of_mem_outputNames (hparcels p hp)
        refine ⟨wf'', grows.trans (grows'.mono ?_)⟩
        intro name hname
        obtain ⟨p, hp, rfl⟩ := List.mem_map.mp hname
        exact hparcels p hp

/-- What comes of a delivery is the same after other files. -/
theorem Independent.deliver_sendAll {order : List Job} {job : Job} {names : Location}
    (ind : Independent t directory (order ++ [job]))
    (src : IsSourceBelow t directory job.path names) (parcels : List FileTree.Parcel) :
    ((sendAll host config directory t order).deliver
        (t.origin config.preferences.output.directory)
        (steps config.preferences.output.directory ++ names) parcels).2 =
      (t.deliver (t.origin config.preferences.output.directory)
        (steps config.preferences.output.directory ++ names) parcels).2 := by
  induction order using List.reverseRecOn with
  | nil => rfl
  | append_singleton order other ih =>
      obtain ⟨names', src'⟩ := ind.source other (by simp)
      have hapart : Apart other.path job.path :=
        (List.pairwise_append.mp ind.apart).2.2 other (by simp) job (by simp)
      have hrest := ih (ind.sublist (by simp))
      rw [sendAll_concat]
      rcases src'.send_cases ind.directory_ne host config with hsend | ⟨q, -, hsend⟩
      · rw [hsend, hrest]
      · rw [hsend, (src'.deliver_comm src hapart _ _ _ q parcels).2, hrest]

end Shipping

/-! ## One file after others -/

section Outcomes

variable {host : Host} {config : Config} {directory : String} {t : FileTree}

/-- What comes of a file when it is the first one. -/
def expected (host : Host) (config : Config) (directory : String) (t : FileTree) (job : Job) :
    Except CatalogError Success :=
  (valueOn (catalogOne host config directory job) t).1

theorem path_of_expected {job : Job} {s : Success}
    (h : expected host config directory t job = .ok s) : s.path = job.path := by
  rw [expected, valueOn_catalogOne] at h
  split at h
  · cases h
  · split at h
    · split at h
      · rw [← Except.ok.inj h]
      · cases h
    · rw [← Except.ok.inj h]

private theorem putParcels_not_blocked (t : FileTree) (place : Location)
    (parcels : List FileTree.Parcel)
    (e : FileError) : (t.putParcels place parcels).2 ≠ .error (.blocked e) := by
  induction parcels generalizing t with
  | nil => simp [FileTree.putParcels]
  | cons parcel rest ih =>
      rw [FileTree.putParcels]
      rcases t.putParcel place parcel with e' | u
      · simp
      · exact ih u

/-- Only the steps can be blocked, not the files. -/
theorem make_of_deliver_blocked {t : FileTree} {place : Location} {l : List String}
    {parcels : List FileTree.Parcel} {e : FileError}
    (h : (t.deliver place l parcels).2 = .error (.blocked e)) : (t.make place l).2 = .error e := by
  rw [FileTree.deliver] at h
  rcases hmake : t.make place l with ⟨u, e' | there⟩ <;> rw [hmake] at h
  · simpa using h
  · exact absurd h (putParcels_not_blocked u there parcels e)

/-- The catalog is known, and so is what comes of it in a tree where the same is delivered. -/
theorem alike_verdict {u : FileTree} {job : Job} {names : Location}
    (wf : t.WellFormed) (wf' : u.WellFormed)
    (grows : FileTree.Grows FileWriter.outputNames t u)
    (src : IsSourceBelow t directory job.path names) (hdirectory : directory ≠ "")
    (hdeliver : ∀ parcels,
      (u.deliver (t.origin config.preferences.output.directory)
          (steps config.preferences.output.directory ++ names) parcels).2 =
        (t.deliver (t.origin config.preferences.output.directory)
          (steps config.preferences.output.directory ++ names) parcels).2)
    (catalog : Except CatalogError Catalog) :
    Alike (config.OutputDetours t)
      (verdict host config directory (t.origin config.preferences.output.directory) catalog job u)
      (verdict host config directory (t.origin config.preferences.output.directory) catalog job t)
    := by
  have leads := src.leadsBelow hdirectory config.preferences.output.directory
  have horigin : t.origin (writerFor config directory job.path).directory =
      t.origin config.preferences.output.directory :=
    FileTree.origin_congr rfl leads.isAbsolute_eq
  have hsteps := src.steps_writer hdirectory config
  unfold verdict
  rcases catalog with e | catalog
  · exact .refl _ _
  dsimp only
  split
  swap
  · exact .refl _ _
  rcases hfault : FileTree.pathFault? (writerFor config directory job.path).directory with
    _ | fault
  swap
  · exact .refl _ _
  dsimp only
  rw [hsteps, hdeliver]
  rcases hresult : (t.deliver (t.origin config.preferences.output.directory)
      (steps config.preferences.output.directory ++ names)
      ((writerFor config directory job.path).parcels host catalog.inventory)).2 with
    (e | ⟨path, e⟩) | ⟨⟩
  · -- The directory cannot be had, and the reason is the same unless the way to it has changed.
    by_cases hdetour : config.OutputDetours t
    · exact .error (.reason hdetour _ _ _ _)
    · have hreason : FileWriter.blockReason u (writerFor config directory job.path).directory =
          FileWriter.blockReason t (writerFor config directory job.path).directory := by
        apply FileWriter.blockReason_of_grows grows wf wf' hfault leads.lastLeads
        · rw [horigin, hsteps]
          exact fun h => hdetour (h.of_append fun n hn => (src.isName n hn).not_up)
        · rw [horigin, hsteps]
          exact make_of_deliver_blocked hresult
        · rw [FileTree.origin_congr grows.home rfl, horigin, hsteps]
          exact make_of_deliver_blocked ((hdeliver _).trans hresult)
      rw [hreason]
      exact .refl _ _
  · simp only [FileWriter.failure]
    exact .refl _ _
  · exact .refl _ _

/-- A file after others: the tree is that of one file more, and what comes of the file is what
would have come of it at the start. -/
theorem Independent.valueOn_catalogOne {order : List Job} {job : Job}
    (ind : Independent t directory (order ++ [job])) (wf : t.WellFormed) (host : Host)
    (config : Config) :
    (valueOn (catalogOne host config directory job)
        (sendAll host config directory t order)).2 =
      sendAll host config directory t (order ++ [job]) ∧
    Alike (config.OutputDetours t)
      (valueOn (catalogOne host config directory job)
        (sendAll host config directory t order)).1
      (expected host config directory t job) := by
  obtain ⟨names, src⟩ := ind.source job (by simp)
  have leads := src.leadsBelow ind.directory_ne config.preferences.output.directory
  obtain ⟨wf', grows⟩ :=
    (ind.sublist (List.sublist_append_left _ _)).sendAll_spec wf host config
  have hcatalog := src.outcome_ofFile_eq wf wf' grows host config.preferences job.id
  have horigin : (sendAll host config directory t order).origin
      config.preferences.output.directory = t.origin config.preferences.output.directory :=
    FileTree.origin_congr grows.home rfl
  have hsame : consignment host config directory (sendAll host config directory t order) job =
      consignment host config directory t job := by
    unfold consignment
    rw [hcatalog]
  rw [expected, valueOn_catalogOne_eq wf' leads, valueOn_catalogOne_eq wf leads, hcatalog, horigin,
    hsame, sendAll_concat]
  refine ⟨rfl, ?_⟩
  dsimp only
  exact alike_verdict wf wf' grows src ind.directory_ne (ind.deliver_sendAll src) _

end Outcomes

end Batch

end CInventory
