import CommentBlocks.Comment.Scan
import CommentBlocks.Encoding
import CommentBlocks.Json.Value

/-!
# Configuration

How files are extracted: how many workers share the work, how much may wait between them, and what a
scan keeps. Configuration is read from JSON records, in which every field may be left out, and is
written as compact JSON with all fields in order.
-/

namespace CommentBlocks

namespace ScanConfig

/-- Read a record of scan settings. -/
def ofJson? (json : Json) : Option ScanConfig := do
  let [minContentLength] ← json.fields? ["min_content_len"] | none
  return { minContentLength := ← Json.count? ({} : ScanConfig).minContentLength minContentLength }

def parse? (text : String) : Option ScanConfig := (Json.parse? text.toList).bind ofJson?

def toJson (config : ScanConfig) : String :=
  "\x7b\"min_content_len\":" ++ toString config.minContentLength ++ "\x7d"

end ScanConfig

/-- How files are extracted. -/
structure ExtractConfig where
  /-- The number of workers; zero stands for as many as the machine runs at once. -/
  workers : Nat := 0
  /-- How many jobs may wait for a worker. -/
  jobCapacity : Nat := 64
  /-- How many blocks may wait for the consumer. -/
  resultCapacity : Nat := 256
  /-- What a scan keeps. -/
  scan : ScanConfig := {}
deriving DecidableEq

namespace ExtractConfig

def withWorkers (workers : Nat) : ExtractConfig := { workers }

def singleThreaded : ExtractConfig := withWorkers 1

/-- The number of workers to start on a machine that runs `available` at once. -/
def effectiveWorkers (config : ExtractConfig) (available : Nat) : Nat :=
  if config.workers = 0 then available else config.workers

/-- Read a record of extraction settings. -/
def ofJson? (json : Json) : Option ExtractConfig := do
  let defaults : ExtractConfig := {}
  let [workers, jobCapacity, resultCapacity, scan] ←
    json.fields? ["workers", "job_capacity", "result_capacity", "scan"] | none
  return {
    workers := ← Json.count? defaults.workers workers
    jobCapacity := ← Json.count? defaults.jobCapacity jobCapacity
    resultCapacity := ← Json.count? defaults.resultCapacity resultCapacity
    scan := ← scan.elim (some defaults.scan) ScanConfig.ofJson? }

def parse? (text : String) : Option ExtractConfig := (Json.parse? text.toList).bind ofJson?

def toJson (config : ExtractConfig) : String :=
  "\x7b\"workers\":" ++ toString config.workers
    ++ ",\"job_capacity\":" ++ toString config.jobCapacity
    ++ ",\"result_capacity\":" ++ toString config.resultCapacity
    ++ ",\"scan\":" ++ config.scan.toJson ++ "\x7d"

end ExtractConfig

namespace Encoding

/-- Read an encoding: its name, or an object whose only member has that name and no value. -/
def ofJson? : Json → Option Encoding
  | .string (some name) => ofConfigName? (String.ofList name)
  | .object [(some name, .null)] => ofConfigName? (String.ofList name)
  | _ => none

def parse? (text : String) : Option Encoding := (Json.parse? text.toList).bind ofJson?

end Encoding

end CommentBlocks
