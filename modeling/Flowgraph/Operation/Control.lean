import Flowgraph.Operand
import Flowgraph.Store.Render

/-!
# Results, cases and printing
-/

namespace Flowgraph

namespace Program

/-- Leave the values of all children in the first slots of the frame. -/
def ret (p : Program) (f : FrameId) (id : NodeId) : Op Unit := do
  let vs ← p.allValues f (← p.node id).children
  Op.setSlots f 0 vs (.malformed id .tooManyResults)

/-- The node that a switch belongs to is the parent of the clause that a case is a child
of. -/
def switchOf (p : Program) (id : NodeId) : Except Stop NodeId := do
  match (← p.node id).parent with
  | none => throw (.malformed id .caseOutsideSwitch)
  | some clause =>
    match (← p.node clause).parent with
    | none => throw (.malformed id .caseOutsideSwitch)
    | some switch => return switch

/-- Whether a case matches: its expression equals the governing value of the switch. A case
without an expression always matches. -/
def caseMatches (p : Program) (f : FrameId) (id : NodeId) : Look Bool := do
  match (← p.node id).child? 0 with
  | none => return true
  | some expr =>
    let governing ← p.operand f (← p.switchOf id) 0
    let v ← p.value f expr
    return governing == v

/-- Whether a case matches, as the node's own value. -/
def caseTest (p : Program) (f : FrameId) (id : NodeId) : Op Unit := do
  p.setOwn f id (.bool (← p.caseMatches f id))

/-- Print the values of all children but the first on a line of their own. -/
def println (p : Program) (f : FrameId) (id : NodeId) : Op Unit := do
  let vs ← p.allValues f ((← p.node id).children.drop 1)
  Op.writeLine ((← get).renderLine vs)

end Program

end Flowgraph
