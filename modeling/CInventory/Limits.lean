/-!
# Limits

The fixed bounds a build of the program works with.
-/

namespace CInventory

structure Limits where
  /-- Bytes of the largest file that is read. -/
  maxFileSize : Nat
  /-- A file with more bytes counts as large. -/
  largeFileThreshold : Nat
  maxLineCount : Nat
  /-- A scan with more declarations is reported. -/
  largeCatalogThreshold : Nat
  /-- Incomplete constructs that one scan reports as warnings. -/
  maxReportedSkipped : Nat
  maxWorkers : Nat
  maxFilesPerBatch : Nat
  /-- Events that are kept over all files. -/
  logBufferSize : Nat
  /-- Events that are kept for one file. -/
  maxEventsPerFile : Nat
  /-- Bytes of a message before it is cut. -/
  maxMessageLength : Nat
deriving DecidableEq

namespace Limits

def development : Limits where
  maxFileSize := 10485760
  largeFileThreshold := 1048576
  maxLineCount := 500000
  largeCatalogThreshold := 10000
  maxReportedSkipped := 64
  maxWorkers := 16
  maxFilesPerBatch := 10000
  logBufferSize := 10000
  maxEventsPerFile := 500
  maxMessageLength := 2048

/-- The limits in the order of their declaration. -/
def toList (l : Limits) : List Nat := [
  l.maxFileSize, l.largeFileThreshold, l.maxLineCount, l.largeCatalogThreshold,
  l.maxReportedSkipped, l.maxWorkers, l.maxFilesPerBatch, l.logBufferSize, l.maxEventsPerFile,
  l.maxMessageLength]

/-- Why a set of limits is refused. -/
inductive Refusal where
  | fileSizeAboveMaximum
  | largeFileAboveMaximum
  | workersOutOfRange
  | eventsAboveBuffer
  | fileSizeAboveProduction
deriving DecidableEq

def Refusal.message : Refusal → String
  | .fileSizeAboveMaximum => "LIMITS: max_file_size exceeds absolute maximum"
  | .largeFileAboveMaximum => "LIMITS: large_file_threshold must not exceed max_file_size"
  | .workersOutOfRange => "LIMITS: max_worker_threads must be between 1 and 256"
  | .eventsAboveBuffer => "LIMITS: max_log_events_per_file must not exceed log_buffer_size"
  | .fileSizeAboveProduction => "PRODUCTION: max_file_size too high for production"

def absoluteMaxFileSize : Nat := 1000000000
def absoluteMaxWorkers : Nat := 256
def productionMaxFileSize : Nat := 50000000

/-- Whether limits can be built with under the profile of this name; the first fault is named. -/
def validate (l : Limits) (profile : String) : Except Refusal Unit :=
  if l.maxFileSize > absoluteMaxFileSize then .error .fileSizeAboveMaximum
  else if l.largeFileThreshold > l.maxFileSize then .error .largeFileAboveMaximum
  else if l.maxWorkers = 0 || l.maxWorkers > absoluteMaxWorkers then .error .workersOutOfRange
  else if l.maxEventsPerFile > l.logBufferSize then .error .eventsAboveBuffer
  else if profile = "production" && l.maxFileSize > productionMaxFileSize then
    .error .fileSizeAboveProduction
  else .ok ()

theorem validate_eq_ok_iff (l : Limits) (profile : String) :
    l.validate profile = .ok () ↔
      l.maxFileSize ≤ absoluteMaxFileSize ∧ l.largeFileThreshold ≤ l.maxFileSize ∧
        0 < l.maxWorkers ∧ l.maxWorkers ≤ absoluteMaxWorkers ∧
        l.maxEventsPerFile ≤ l.logBufferSize ∧
        (profile = "production" → l.maxFileSize ≤ productionMaxFileSize) := by
  unfold validate
  split
  · simp; omega
  split
  · simp; omega
  split
  · next h => simp at h ⊢; omega
  split
  · simp; omega
  split
  · next h =>
    simp only [Bool.and_eq_true, decide_eq_true_eq] at h
    simp only [reduceCtorEq, false_iff]
    intro bounds
    exact absurd (bounds.2.2.2.2.2 h.1) (by omega)
  · next h => simp at *; grind

/-- What is wrong with the bounds on events, if anything. -/
def loggingFault? (l : Limits) : Option String :=
  if l.logBufferSize = 0 then some "log_buffer_size must be greater than zero"
  else if l.maxEventsPerFile = 0 then some "max_log_events_per_file must be greater than zero"
  else if l.maxMessageLength < 16 then
    some s!"max_log_message_length too small: {l.maxMessageLength}"
  else none

end Limits

end CInventory
