import TonTrace.Action.Codec
import TonTrace.Action.Template
import TonTrace.Flow.Codec
import TonTrace.Rewriting

/-! Reports: the actions of a reading with the ledger of the whole trace. -/

set_option autoImplicit false

namespace TonTrace

structure Report where
  actions : List Action
  flow : Flow

namespace Report

mutual

/-- Collect the actions to keep, a node's before those below it. The ledger
takes in the children, first to last, and then the node itself. -/
def collect (keep : Action → Bool) : Reading → Report
  | .node cluster children =>
    let below := collectAll keep .empty children
    { actions := cluster.actions.filter keep ++ below.actions
      flow := below.flow.merge cluster.flow }

def collectAll (keep : Action → Bool) (flow : Flow) : List Reading → Report
  | [] => { actions := [], flow }
  | child :: rest =>
    let first := collect keep child
    let others := collectAll keep (flow.merge first.flow) rest
    { actions := first.actions ++ others.actions, flow := others.flow }

end

/-- The report of a reading. With an account, only the actions that it is a
subject of; the ledger is always that of the whole reading. -/
def ofReading (account : Option Address) (reading : Reading) : Report :=
  collect (fun action => account.all action.isSubject) reading

def ofTrace (rules : List Rule) (limit : Nat) (account : Option Address) (trace : Trace) : Report :=
  ofReading account (rewriteAll rules limit (.ofTrace trace)).1

def containsLike (report : Report) (template : Action) : Bool := report.actions.any template.fits

def members (report : Report) : List (String × Json) := [
  ("actions", .array (report.actions.map Action.toJson)),
  ("value_flow", report.flow.toJson)]

def toJson (report : Report) : Json := .object report.members

end Report

end TonTrace
