import Flowgraph.Native.Basic

/-!
# Programs

A program is a graph that has been loaded: every node that stands for a constant carries its
value, and every native that the graph names is known.
-/

namespace Flowgraph

/-- A loaded graph with its natives and limits. -/
structure Program where
  graph : Graph
  /-- For every node the value it stands for, if it stands for one. -/
  constants : Array (Option Value)
  natives : Registry
  config : Config

/-- The frame that every top-level function links to. -/
def globalFrame : FrameId := ⟨0⟩

/-- The value that a node stands for. A declaration stands for its function; otherwise the
payload decides, and a literal without one stands for nil. -/
def Node.constant (natives : Registry) (id : NodeId) (n : Node) : Except Fault (Option Value) :=
  if n.kind = .funcDecl then .ok (some (.func id none))
  else
    match n.payload with
    | some (.literal l) => .ok (some (.ofLiteral l))
    | some (.func decl) => .ok (some (.func decl none))
    | some (.native name) =>
      if natives.contains name then .ok (some (.native name)) else .error (.unknownNative name)
    | _ => .ok (if n.kind = .basicLit then some .nil else none)

namespace Program

/-- Load a graph. It fails at the first node that names an unknown native. -/
def load (graph : Graph) (natives : Registry) (config : Config) : Except Fault Program := do
  let constants ← graph.entries.mapM fun (id, n) => n.constant natives id
  return { graph, natives, config, constants := constants.toArray }

/-- The value that a node stands for. -/
def constant? (p : Program) (id : NodeId) : Option Value := (p.constants[id.index]?).join

/-- The node of that name. -/
def node (p : Program) (id : NodeId) : Except Stop Node := Graph.orStop (p.graph.node id)

/-- The type descriptor of that name. -/
def type (p : Program) (id : TypeId) : Except Stop Ty := Graph.orStop (p.graph.type id)

/-- The layout of a declared function. -/
def definition (p : Program) (decl : NodeId) : Except Stop FuncDef := do
  match (← p.node decl).definition? with
  | some d => .ok d
  | none => .error (.malformed decl .noDeclaration)

/-- The first top-level function of that name, as a value. -/
def findFunc? (p : Program) (name : String) : Option Value :=
  (p.graph.findFunc? name).map fun decl => .func decl none

end Program

end Flowgraph
