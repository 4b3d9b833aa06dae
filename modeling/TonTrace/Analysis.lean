import TonTrace.Config
import TonTrace.Report

/-! Analysis of traces that are fetched by hash.

A source of traces answers each request after some delay, or never; what it
answers does not depend on other requests. Time is counted in milliseconds. A
batch asks for its traces one after the other or all at once, and leaves out
the ones that fail.
-/

set_option autoImplicit false

namespace TonTrace

def Config.analyze (config : Config) (account : Option Address) (trace : Trace) :
    Except Error Report := do
  trace.validate config.maxDepth.val.toNat
  return .ofTrace (Catalog.rules config.groups) config.maxRewrites.val.toNat account trace

structure Reply where
  outcome : Except Error Trace
  delay : Nat := 0

/-- What is answered to a request; absent when no answer ever comes. -/
abbrev TraceSource := Hash → Option Reply

/-- A source with the given answers. Of several for one hash the first counts;
a hash without one is unknown. -/
def TraceSource.ofTable (table : List (Hash × Option Reply)) : TraceSource := fun hash =>
  (table.lookup hash).getD (some { outcome := .error (.unknownTrace hash) })

structure Analysis where
  hash : Hash
  transactions : Nat
  report : Report

def Analysis.toJson (analysis : Analysis) : Json :=
  .object (("hash", analysis.hash.toJson) :: ("total_transactions", .integer analysis.transactions) ::
    analysis.report.members)

structure Completion where
  finished : Nat
  result : Except Error Analysis

namespace Config

def analysisOf (config : Config) (hash : Hash) (trace : Trace) : Except Error Analysis := do
  let report ← config.analyze none trace
  return { hash, transactions := trace.size, report }

/-- Fetch and analyse a trace from time `start` on. The time limit runs from the start of the request. -/
def request (config : Config) (source : TraceSource) (start : Nat) (hash : Hash) : Completion :=
  let limit := config.timeout.val.toNat
  let late : Completion := { finished := start + limit, result := .error (.timedOut hash limit) }
  match source hash with
  | none => late
  | some reply =>
    if reply.delay ≤ limit then
      { finished := start + reply.delay, result := reply.outcome.bind (config.analysisOf hash) }
    else late

def analyzeTransaction (config : Config) (source : TraceSource) (hash : Hash) :
    Except Error Analysis := (config.request source 0 hash).result

/-- Each request starts when the one before it has finished. -/
def requestInTurn (config : Config) (source : TraceSource) (start : Nat) :
    List Hash → List (Except Error Analysis)
  | [] => []
  | hash :: rest =>
    let done := config.request source start hash
    done.result :: config.requestInTurn source done.finished rest

/-- All requests start together. Each result is put in the place of its
request when the request finishes. -/
def requestTogether (config : Config) (source : TraceSource) (start : Nat) (hashes : List Hash) :
    List (Except Error Analysis) :=
  let pending := hashes.zipIdx.map fun (hash, place) => (config.request source start hash, place)
  let finished := pending.mergeSort fun first second => first.1.finished ≤ second.1.finished
  let places := finished.foldl (fun places (done, place) => places.set place (some done.result))
    (hashes.map fun _ => none)
  places.filterMap id

def analyzeBatch (config : Config) (source : TraceSource) (hashes : List Hash) : List Analysis :=
  let results :=
    if config.parallel then config.requestTogether source 0 hashes
    else config.requestInTurn source 0 hashes
  results.filterMap Except.toOption

end Config

end TonTrace
