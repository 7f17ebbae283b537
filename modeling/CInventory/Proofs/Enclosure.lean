import CInventory.Scan.Brace
import CInventory.Scan.Comment

/-!
# Closed comments and closed groups

Where a block comment and a brace group end, said without the search that finds the end. A
comment ends with the first closer in it. A group ends with the first brace in front of which
and with which as many braces close as open.
-/

namespace CInventory.Scan

/-! ## Block comments -/

def closer : List Char := ['*', '/']

theorem closer_infix_cons {c : Char} {cs : List Char} :
    closer <:+: c :: cs ↔ (c = '*' ∧ cs.head? = some '/') ∨ closer <:+: cs := by
  rw [List.infix_cons_iff]
  refine or_congr ?_ Iff.rfl
  cases cs with
  | nil => simp [closer]
  | cons d cs => simp [closer, List.cons_prefix_cons, eq_comm]

private theorem closerAux_cons {c : Char} {cs : List Char} (taken : List Char)
    (h : ¬ (c = '*' ∧ cs.head? = some '/')) :
    closerAux taken (c :: cs) = closerAux (c :: taken) cs := by
  rw [closerAux]
  rintro rest rfl rfl
  exact h ⟨rfl, rfl⟩

/-- A text whose only closer is at its end is taken whole, whatever follows. -/
theorem closerAux_of_first {body : List Char} (taken rest : List Char)
    (first : ¬ closer <:+: body ++ ['*']) :
    closerAux taken (body ++ '*' :: '/' :: rest) =
      some (taken.reverse ++ (body ++ closer), rest) := by
  induction body generalizing taken with
  | nil => simp [closerAux, closer]
  | cons c body ih =>
      rw [List.cons_append, closer_infix_cons, not_or] at first
      have hc : ¬ (c = '*' ∧ (body ++ '*' :: '/' :: rest).head? = some '/') := by
        cases body with
        | nil => simp
        | cons d body => exact first.1
      rw [List.cons_append, closerAux_cons taken hc, ih _ first.2]
      simp

theorem closerAux_some {taken cs text rest : List Char}
    (h : closerAux taken cs = some (text, rest)) :
    ∃ body, cs = body ++ '*' :: '/' :: rest ∧ text = taken.reverse ++ (body ++ closer) ∧
      ¬ closer <:+: body ++ ['*'] := by
  fun_induction closerAux taken cs with
  | case1 => simp at h
  | case2 taken rest' =>
      simp only [Option.some.injEq, Prod.mk.injEq] at h
      obtain ⟨rfl, rfl⟩ := h
      exact ⟨[], by simp, by simp [closer], by simp [closer, List.infix_cons_iff]⟩
  | case3 taken c cs hc ih =>
      obtain ⟨body, rfl, rfl, first⟩ := ih h
      refine ⟨c :: body, by simp, by simp, ?_⟩
      rw [List.cons_append, closer_infix_cons, not_or]
      refine ⟨?_, first⟩
      rintro ⟨rfl, head⟩
      cases body with
      | nil => simp at head
      | cons d body => simp_all

theorem closerAux_eq_none_iff {taken cs : List Char} :
    closerAux taken cs = none ↔ ¬ closer <:+: cs := by
  fun_induction closerAux taken cs with
  | case1 => simp [closer]
  | case2 taken rest => simp [closer_infix_cons]
  | case3 taken c cs hc ih =>
      have hn : ¬ (c = '*' ∧ cs.head? = some '/') := by
        rintro ⟨rfl, head⟩
        cases cs with
        | nil => simp at head
        | cons d cs => simp_all
      rw [ih, closer_infix_cons]
      simp [hn]

/-! ## Brace groups -/

/-- With `depth` groups open in front of `cs`, at least one is open at every place in `cs`. -/
def HoldsOpen (depth : Nat) (cs : List Char) : Prop :=
  ∀ front, front <+: cs → front.count '\x7d' < depth + front.count '\x7b'

theorem holdsOpen_nil {depth : Nat} : HoldsOpen depth [] ↔ 0 < depth := by
  simp [HoldsOpen]

theorem holdsOpen_cons {depth : Nat} {c : Char} {cs : List Char} :
    HoldsOpen depth (c :: cs) ↔
      0 < depth ∧ ∀ front, front <+: cs →
        (c :: front).count '\x7d' < depth + (c :: front).count '\x7b' := by
  rw [HoldsOpen, Text.forall_front_cons_iff, List.count_nil, List.count_nil, Nat.add_zero]

theorem holdsOpen_open {depth : Nat} {cs : List Char} (hd : 0 < depth) :
    HoldsOpen depth ('\x7b' :: cs) ↔ HoldsOpen (depth + 1) cs := by
  rw [holdsOpen_cons]
  simp only [hd, true_and, HoldsOpen]
  refine forall_congr' fun front => imp_congr_right fun _ => ?_
  simp
  omega

theorem holdsOpen_close {depth : Nat} {cs : List Char} :
    HoldsOpen (depth + 1) ('\x7d' :: cs) ↔ HoldsOpen depth cs := by
  rw [holdsOpen_cons]
  simp only [Nat.zero_lt_succ, true_and, HoldsOpen]
  refine forall_congr' fun front => imp_congr_right fun _ => ?_
  simp
  omega

theorem holdsOpen_other {depth : Nat} {c : Char} {cs : List Char} (hopen : c ≠ '\x7b')
    (hclose : c ≠ '\x7d') : HoldsOpen depth (c :: cs) ↔ HoldsOpen depth cs := by
  rw [holdsOpen_cons]
  simp only [HoldsOpen, List.count_cons_of_ne hopen, List.count_cons_of_ne hclose]
  refine ⟨fun h => h.2, fun h => ⟨?_, h⟩⟩
  simpa using h [] List.nil_prefix

theorem closingAux_of_holdsOpen {body : List Char} {depth : Nat} (taken rest : List Char)
    (held : HoldsOpen depth body)
    (last : depth + body.count '\x7b' = body.count '\x7d' + 1) :
    closingAux taken depth (body ++ '\x7d' :: rest) =
      some (taken.reverse ++ (body ++ ['\x7d']), rest) := by
  induction body generalizing taken depth with
  | nil =>
      have hd : depth ≤ 1 := by simp at last; omega
      simp [closingAux, hd]
  | cons c body ih =>
      have hd : 0 < depth := (holdsOpen_cons.mp held).1
      rw [List.cons_append, closingAux]
      by_cases hopen : c = '\x7b'
      · subst hopen
        have hlast : depth + 1 + body.count '\x7b' = body.count '\x7d' + 1 := by
          simp at last; omega
        simp [ih _ ((holdsOpen_open hd).mp held) hlast]
      · by_cases hclose : c = '\x7d'
        · subst hclose
          obtain ⟨depth, rfl⟩ : ∃ d, depth = d + 1 := ⟨depth - 1, by omega⟩
          have hheld := holdsOpen_close.mp held
          have hpos : 0 < depth := by simpa using hheld [] List.nil_prefix
          have hlast : depth + body.count '\x7b' = body.count '\x7d' + 1 := by
            simp at last; omega
          simp [show depth ≠ 0 by omega, ih _ hheld hlast]
        · rw [List.count_cons_of_ne hopen, List.count_cons_of_ne hclose] at last
          simp [hopen, hclose, ih _ ((holdsOpen_other hopen hclose).mp held) last]

private theorem closingAux_some {taken cs group rest : List Char} {depth : Nat} (hd : 0 < depth)
    (h : closingAux taken depth cs = some (group, rest)) :
    ∃ body, cs = body ++ '\x7d' :: rest ∧ group = taken.reverse ++ (body ++ ['\x7d']) ∧
      HoldsOpen depth body ∧ depth + body.count '\x7b' = body.count '\x7d' + 1 := by
  induction cs generalizing taken depth with
  | nil => simp [closingAux] at h
  | cons c cs ih =>
      rw [closingAux] at h
      split at h
      · next hopen =>
          obtain ⟨body, rfl, rfl, held, last⟩ := ih (by omega) h
          subst hopen
          exact ⟨_ :: body, rfl, by simp, (holdsOpen_open hd).mpr held, by simp; omega⟩
      · next hopen =>
          split at h
          · next hclose =>
              subst hclose
              split at h
              · next hone =>
                  simp only [Option.some.injEq, Prod.mk.injEq] at h
                  obtain ⟨rfl, rfl⟩ := h
                  exact ⟨[], rfl, by simp, holdsOpen_nil.mpr hd, by simp; omega⟩
              · next hmany =>
                  obtain ⟨depth, rfl⟩ : ∃ d, depth = d + 1 := ⟨depth - 1, by omega⟩
                  obtain ⟨body, rfl, rfl, held, last⟩ := ih (by omega) h
                  exact ⟨_ :: body, rfl, by simp, holdsOpen_close.mpr held,
                    by simp at last ⊢; omega⟩
          · next hclose =>
              obtain ⟨body, rfl, rfl, held, last⟩ := ih hd h
              refine ⟨c :: body, rfl, by simp, (holdsOpen_other hopen hclose).mpr held, ?_⟩
              rw [List.count_cons_of_ne hopen, List.count_cons_of_ne hclose, last]

private theorem holdsOpen_of_closingAux {taken cs : List Char} {depth : Nat} (hd : 0 < depth)
    (h : closingAux taken depth cs = none) : HoldsOpen depth cs := by
  induction cs generalizing taken depth with
  | nil => exact holdsOpen_nil.mpr hd
  | cons c cs ih =>
      rw [closingAux] at h
      split at h
      · next hopen =>
          subst hopen
          exact (holdsOpen_open hd).mpr (ih (by omega) h)
      · next hopen =>
          split at h
          · next hclose =>
              subst hclose
              split at h
              · cases h
              · next hmany =>
                  obtain ⟨depth, rfl⟩ : ∃ d, depth = d + 1 := ⟨depth - 1, by omega⟩
                  exact holdsOpen_close.mpr (ih (by omega) h)
          · next hclose => exact (holdsOpen_other hopen hclose).mpr (ih hd h)

def GroupBody (body : List Char) : Prop :=
  HoldsOpen 1 body ∧ body.count '\x7b' = body.count '\x7d'

theorem closing?_of_groupBody {body : List Char} (rest : List Char) (inside : GroupBody body) :
    closing? ('\x7b' :: (body ++ '\x7d' :: rest)) =
      some ('\x7b' :: (body ++ ['\x7d']), rest) := by
  have hlast : 1 + body.count '\x7b' = body.count '\x7d' + 1 := by
    rw [inside.2]; omega
  rw [closing?, closingAux]
  simpa using closingAux_of_holdsOpen ['\x7b'] rest inside.1 hlast

theorem closing?_some {after group rest : List Char}
    (h : closing? ('\x7b' :: after) = some (group, rest)) :
    ∃ body, after = body ++ '\x7d' :: rest ∧ group = '\x7b' :: (body ++ ['\x7d']) ∧
      GroupBody body := by
  rw [closing?, closingAux, if_pos rfl] at h
  obtain ⟨body, hafter, hgroup, held, last⟩ := closingAux_some (by omega) h
  exact ⟨body, hafter, by simpa using hgroup, held, by omega⟩

theorem closing?_eq_none_iff {after : List Char} :
    closing? ('\x7b' :: after) = none ↔ HoldsOpen 1 after := by
  constructor
  · intro h
    rw [closing?, closingAux, if_pos rfl] at h
    exact holdsOpen_of_closingAux (by omega) h
  · intro held
    cases h : closing? ('\x7b' :: after) with
    | none => rfl
    | some found =>
        obtain ⟨body, rfl, _, inside⟩ := closing?_some h
        have hclosed := held (body ++ ['\x7d']) ⟨found.2, by simp⟩
        rw [List.count_append, List.count_append, inside.2] at hclosed
        simp at hclosed
        omega

end CInventory.Scan
