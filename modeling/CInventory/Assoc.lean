/-!
# Ordered association lists

Pairs in ascending order of their keys. Keys that compare equal are one key, shown in the form
that came first. Look-up is stated without any condition on the order of the list.
-/

namespace CInventory.Assoc

variable {κ α : Type} [Ord κ]

/-- Put the value that `f` makes of the one already there under the key `k`. -/
def alter (k : κ) (f : Option α → α) : List (κ × α) → List (κ × α)
  | [] => [(k, f none)]
  | (k', v) :: rest =>
    match compare k k' with
    | .lt => (k, f none) :: (k', v) :: rest
    | .eq => (k', f (some v)) :: rest
    | .gt => (k', v) :: alter k f rest

def insert (k : κ) (v : α) (pairs : List (κ × α)) : List (κ × α) := alter k (fun _ => v) pairs

def get? (k : κ) : List (κ × α) → Option α
  | [] => none
  | (k', v) :: rest => if compare k k' = .eq then some v else get? k rest

def contains (k : κ) (pairs : List (κ × α)) : Bool := (get? k pairs).isSome

theorem get?_alter_of_ne [Std.TransOrd κ] {k k' : κ} (h : compare k' k ≠ .eq)
    (f : Option α → α) (pairs : List (κ × α)) : get? k' (alter k f pairs) = get? k' pairs := by
  induction pairs with
  | nil => simp [alter, get?, h]
  | cons pair rest ih =>
    obtain ⟨k'', v⟩ := pair
    unfold alter
    split
    · rw [get?, if_neg h]
    · next hk =>
      have hne : compare k' k'' ≠ .eq := fun e =>
        h (Std.TransCmp.eq_trans e (Std.OrientedCmp.eq_symm hk))
      simp [get?, hne]
    · simp [get?, ih]

/-! ## Keys -/

section Keys

variable [Std.LawfulEqOrd κ] {pairs : List (κ × α)}

theorem contains_iff {k : κ} : contains k pairs = true ↔ k ∈ pairs.map Prod.fst := by
  induction pairs with
  | nil => simp [contains, get?]
  | cons pair rest ih =>
    obtain ⟨k', v⟩ := pair
    rw [List.map_cons, List.mem_cons, ← ih, contains, get?, contains]
    by_cases hk : k = k'
    · subst hk
      simp
    · simp [hk]

/-- The keys are those of before and the one that was written. -/
theorem mem_keys_alter {k k' : κ} {f : Option α → α} :
    k' ∈ (alter k f pairs).map Prod.fst ↔ k' = k ∨ k' ∈ pairs.map Prod.fst := by
  induction pairs with
  | nil => simp [alter]
  | cons pair rest ih =>
    obtain ⟨k'', v⟩ := pair
    unfold alter
    split
    · simp
    · next hk =>
      rw [Std.compare_eq_iff_eq] at hk
      subst hk
      simp
    · simp only [List.map_cons, List.mem_cons, ih]
      exact or_left_comm

end Keys

/-! ## Keys in order -/

/-- Every key comes before those behind it. -/
def Sorted (pairs : List (κ × α)) : Prop := pairs.Pairwise fun a b => compare a.1 b.1 = .lt

theorem sorted_cons {pair : κ × α} {pairs : List (κ × α)} :
    Sorted (pair :: pairs) ↔ (∀ p ∈ pairs, compare pair.1 p.1 = .lt) ∧ Sorted pairs :=
  List.pairwise_cons

theorem get?_eq_none_of_lt {k : κ} {pairs : List (κ × α)}
    (h : ∀ p ∈ pairs, compare k p.1 = .lt) : get? k pairs = none := by
  induction pairs with
  | nil => rfl
  | cons pair rest ih =>
    have hne : compare k pair.1 ≠ .eq := by
      rw [h pair List.mem_cons_self]
      decide
    rw [get?, if_neg hne]
    exact ih fun p hp => h p (List.mem_cons_of_mem pair hp)

section Order

variable [Std.TransOrd κ] {pairs : List (κ × α)}

/-- A key in front of the first one is in front of all. -/
theorem lt_of_lt_head {k k' : κ} {v : α} (sorted : Sorted ((k', v) :: pairs))
    (h : compare k k' = .lt) : ∀ p ∈ (k', v) :: pairs, compare k p.1 = .lt := by
  refine List.forall_mem_cons.mpr ⟨h, ?_⟩
  intro p hp
  exact Std.TransCmp.lt_trans h ((sorted_cons.mp sorted).1 p hp)

/-- Nothing but the value under its key is new. -/
theorem mem_alter {k : κ} {f : Option α → α} {p : κ × α} (h : p ∈ alter k f pairs) :
    p ∈ pairs ∨ compare k p.1 = .eq := by
  induction pairs with
  | nil =>
    rw [List.mem_singleton.mp h]
    exact .inr Std.ReflCmp.compare_self
  | cons pair rest ih =>
    obtain ⟨k', v⟩ := pair
    unfold alter at h
    split at h
    · rcases List.mem_cons.mp h with rfl | h
      · exact .inr Std.ReflCmp.compare_self
      · exact .inl h
    · next hk =>
      rcases List.mem_cons.mp h with rfl | h
      · exact .inr hk
      · exact .inl (List.mem_cons_of_mem _ h)
    · rcases List.mem_cons.mp h with rfl | h
      · exact .inl List.mem_cons_self
      · exact (ih h).imp_left (List.mem_cons_of_mem _)

theorem sorted_alter (sorted : Sorted pairs) (k : κ) (f : Option α → α) :
    Sorted (alter k f pairs) := by
  induction pairs with
  | nil => exact List.pairwise_singleton _ _
  | cons pair rest ih =>
    obtain ⟨k', v⟩ := pair
    obtain ⟨hhead, hrest⟩ := sorted_cons.mp sorted
    unfold alter
    split
    · next hk => exact sorted_cons.mpr ⟨lt_of_lt_head sorted hk, sorted⟩
    · exact sorted_cons.mpr ⟨hhead, hrest⟩
    · next hk =>
      refine sorted_cons.mpr ⟨?_, ih hrest⟩
      intro p hp
      rcases mem_alter hp with hp | hp
      · exact hhead p hp
      · exact Std.TransCmp.lt_of_lt_of_eq (Std.OrientedCmp.lt_of_gt hk) hp

theorem get?_alter_self (sorted : Sorted pairs) (k : κ) (f : Option α → α) :
    get? k (alter k f pairs) = some (f (get? k pairs)) := by
  induction pairs with
  | nil => simp [alter, get?]
  | cons pair rest ih =>
    obtain ⟨k', v⟩ := pair
    unfold alter
    split
    · next hk =>
      rw [get?_eq_none_of_lt (lt_of_lt_head sorted hk), get?, if_pos Std.ReflCmp.compare_self]
    · next hk => simp [get?, hk]
    · next hk =>
      have hrest := ih (sorted_cons.mp sorted).2
      simpa [get?, hk] using hrest

theorem get?_of_mem (sorted : Sorted pairs) {k : κ} {v : α} (h : (k, v) ∈ pairs) :
    get? k pairs = some v := by
  induction pairs with
  | nil => cases h
  | cons pair rest ih =>
    obtain ⟨k', v'⟩ := pair
    obtain ⟨hhead, hrest⟩ := sorted_cons.mp sorted
    rcases List.mem_cons.mp h with heq | h
    · cases heq
      rw [get?, if_pos Std.ReflCmp.compare_self]
    · have hne : compare k k' ≠ .eq := by
        intro heq
        have hlt := hhead _ h
        rw [Std.OrientedCmp.eq_symm heq] at hlt
        cases hlt
      rw [get?, if_neg hne]
      exact ih hrest h

theorem nodup_keys (sorted : Sorted pairs) : (pairs.map Prod.fst).Nodup := by
  refine List.pairwise_map.mpr (sorted.imp ?_)
  intro a b hlt heq
  rw [heq, Std.ReflOrd.compare_self] at hlt
  cases hlt

end Order

end CInventory.Assoc
