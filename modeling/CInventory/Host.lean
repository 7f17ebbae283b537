import CInventory.Limits

/-!
# Hosts

What a run takes from the machine it runs on, and the limits it was built with.
-/

namespace CInventory

/-- The readings that a run reports. -/
structure Clock where
  timestamp : String := ""
  /-- Milliseconds that a piece of work took. -/
  elapsed : Nat := 0

/-- What keeps a directory from being listed. -/
inductive ListingFault where
  /-- It cannot be opened. -/
  | closed (reason : String)
  /-- It was opened, but not all names in it can be read. -/
  | broken (reason : String)
deriving DecidableEq

structure Host where
  limits : Limits := .development
  clock : Clock := {}
  processors : Nat := 1
  /-- What is wrong with the directory that a path leads to, if it cannot be listed. -/
  listingFault? : String → Option ListingFault := fun _ => none

/-- The elapsed milliseconds with two places. -/
def Host.elapsedText (h : Host) : String := s!"{h.clock.elapsed}.00"

end CInventory
