import CInventory.Json
import CInventory.Scan.Segment

/-!
# Metrics

How many segments of each sort a source has.
-/

namespace CInventory.Scan

structure Metrics where
  constants : Nat := 0
  vars : Nat := 0
  functions : Nat := 0
  skippedWords : Nat := 0
  lineComments : Nat := 0
  /-- Closed or not. -/
  blockComments : Nat := 0
  unclosedComments : Nat := 0
  truncated : Nat := 0
  unclosedBodies : Nat := 0
  otherCharacters : Nat := 0
deriving DecidableEq

namespace Metrics

def declarations (m : Metrics) : Nat := m.constants + m.vars + m.functions

/-- Constructs that run to the end of the source and declare nothing. -/
def incomplete (m : Metrics) : Nat := m.unclosedComments + m.truncated + m.unclosedBodies

def ofKind (m : Metrics) : Kind → Nat
  | .constant => m.constants
  | .variable => m.vars
  | .function => m.functions

def count (m : Metrics) : Segment → Metrics
  | .blank _ => m
  | .lineComment _ => { m with lineComments := m.lineComments + 1 }
  | .blockComment _ true => { m with blockComments := m.blockComments + 1 }
  | .blockComment _ false =>
    { m with blockComments := m.blockComments + 1, unclosedComments := m.unclosedComments + 1 }
  | .declaration .constant _ => { m with constants := m.constants + 1 }
  | .declaration .variable _ => { m with vars := m.vars + 1 }
  | .declaration .function _ => { m with functions := m.functions + 1 }
  | .word _ => { m with skippedWords := m.skippedWords + 1 }
  | .other _ => { m with otherCharacters := m.otherCharacters + 1 }
  | .truncated _ _ => { m with truncated := m.truncated + 1 }
  | .unclosed _ _ => { m with unclosedBodies := m.unclosedBodies + 1 }

def ofSegments (segments : List Segment) : Metrics := segments.foldl count {}

/-- The counters by name. -/
def members (m : Metrics) : List (String × Json) := [
  ("constants", .nat m.constants), ("variables", .nat m.vars),
  ("functions", .nat m.functions), ("skipped_words", .nat m.skippedWords),
  ("line_comments", .nat m.lineComments), ("block_comments", .nat m.blockComments),
  ("unterminated_block_comments", .nat m.unclosedComments),
  ("truncated_declarations", .nat m.truncated),
  ("unterminated_function_bodies", .nat m.unclosedBodies),
  ("other_characters", .nat m.otherCharacters)]

/-- The counters and their totals. -/
def toJson (m : Metrics) : Json :=
  .object (m.members ++
    [("records", .nat m.declarations), ("skipped_constructs", .nat m.incomplete)])

end Metrics

end CInventory.Scan
