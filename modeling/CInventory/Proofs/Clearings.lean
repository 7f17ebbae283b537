import Mathlib

/-!
# Calls since the last clearing

Calls change a state one after the other, and after a call that clears it nothing of the calls
before matters. So what a state holds is accounted for by the calls since the last clearing.
-/

namespace CInventory

variable {α σ : Type}

/-- The calls behind the last one that clears. -/
def sinceClearing (clears : α → Bool) (calls : List α) : List α := calls.rtakeWhile (!clears ·)

theorem sinceClearing_concat (clears : α → Bool) (calls : List α) (a : α) :
    sinceClearing clears (calls ++ [a]) =
      if clears a then [] else sinceClearing clears calls ++ [a] := by
  unfold sinceClearing
  rw [List.rtakeWhile_concat]
  cases clears a <;> simp

theorem sinceClearing_of_none {clears : α → Bool} {calls : List α}
    (none : ∀ a ∈ calls, clears a = false) : sinceClearing clears calls = calls :=
  List.rtakeWhile_eq_self_iff.mpr (by simpa using none)

/-- An account that a clearing starts anew, and that every other call continues, is right after
any calls. -/
theorem foldl_accounted (account : List α → σ → Prop) {clears : α → Bool} {step : σ → α → σ}
    {start : σ} (first : account [] start)
    (clear : ∀ s a, clears a = true → account [] (step s a))
    (more : ∀ since s a, clears a = false → account since s → account (since ++ [a]) (step s a))
    (calls : List α) : account (sinceClearing clears calls) (calls.foldl step start) := by
  induction calls using List.reverseRecOn with
  | nil => exact first
  | append_singleton calls a ih =>
      rw [List.foldl_concat, sinceClearing_concat]
      cases ha : clears a with
      | true => exact clear _ a ha
      | false => exact more _ _ a ha ih

end CInventory
