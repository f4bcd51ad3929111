import Flowgraph.Graph.Node

/-!
# Program graphs

A graph is a table of nodes, a table of type descriptors and the size of the global frame.
It is built by edits: a node is added after its children and becomes their parent, while
successors and declarations may be set at any time once the node exists.
-/

namespace Flowgraph

/-- A program: nodes, types, and the number of global slots. -/
structure Graph where
  nodes : Array Node := #[]
  types : Array Ty := #[]
  globals : Nat := 0
  deriving Repr, Inhabited

/-- An access beyond the end of a table. -/
structure OutOfTable where
  index : Nat
  size : Nat
  deriving DecidableEq, Repr

/-- The text of an access beyond the end of a table. -/
def OutOfTable.message (e : OutOfTable) : String :=
  "index out of bounds: the len is " ++ Nat.repr e.size ++ " but the index is "
    ++ Nat.repr e.index

namespace Graph

/-- The node of that name, if the graph has one. -/
def node? (g : Graph) (id : NodeId) : Option Node := g.nodes[id.index]?

/-- The type descriptor of that name, if the graph has one. -/
def type? (g : Graph) (id : TypeId) : Option Ty := g.types[id.index]?

/-- The node of that name. -/
def node (g : Graph) (id : NodeId) : Except OutOfTable Node :=
  match g.node? id with
  | some n => .ok n
  | none => .error ⟨id.index, g.nodes.size⟩

/-- The type descriptor of that name. -/
def type (g : Graph) (id : TypeId) : Except OutOfTable Ty :=
  match g.type? id with
  | some t => .ok t
  | none => .error ⟨id.index, g.types.size⟩

/-- Nodes with their names, in the order of the table. -/
def entries (g : Graph) : List (NodeId × Node) :=
  g.nodes.toList.zipIdx.map (fun (n, i) => (⟨i⟩, n))

/-- The first declaration of a function of that name. -/
def findFunc? (g : Graph) (name : String) : Option NodeId :=
  (g.entries.find? fun (_, n) =>
    n.kind == .funcDecl && (n.definition?.map FuncDef.name == some name)).map Prod.fst

/-! ### Building -/

/-- Change an existing node. -/
def update (g : Graph) (id : NodeId) (f : Node → Node) : Except OutOfTable Graph :=
  if id.index < g.nodes.size then
    .ok { g with nodes := g.nodes.modify id.index f }
  else
    .error ⟨id.index, g.nodes.size⟩

/-- Make `id` the parent of every listed node. -/
def adopt (g : Graph) (id : NodeId) : List NodeId → Except OutOfTable Graph
  | [] => .ok g
  | c :: cs => do (← g.update c fun n => { n with parent := some id }).adopt id cs

/-- One change to a graph under construction. -/
inductive Edit where
  | addType (t : Ty)
  | addNode (n : Node)
  /-- Go on at `target` after `source`. -/
  | link (source target : NodeId)
  /-- Go on at `whenTrue` or at `whenFalse` after `source`, as its value says. -/
  | branch (source : NodeId) (whenTrue : Option NodeId) (whenFalse : NodeId)
  /-- Link every listed node to the one after it. -/
  | chain (ids : List NodeId)
  | define (decl : NodeId) (d : FuncDef)
  | setGlobals (size : Nat)
  deriving Repr

/-- Link every listed node to the one after it. -/
def linkAll (g : Graph) : List NodeId → Except OutOfTable Graph
  | a :: b :: rest => do (← g.update a fun n => { n with next := some b }).linkAll (b :: rest)
  | _ => .ok g

/-- Carry out one edit. It fails only when it has to change a node that does not exist. -/
def edit (g : Graph) : Edit → Except OutOfTable Graph
  | .addType t => .ok { g with types := g.types.push t }
  | .addNode n => do
    let g ← g.adopt ⟨g.nodes.size⟩ n.children
    .ok { g with nodes := g.nodes.push n }
  | .link source target => g.update source fun n => { n with next := some target }
  | .branch source whenTrue whenFalse =>
    g.update source fun n => { n with next := whenTrue, otherwise := some whenFalse }
  | .chain ids => g.linkAll ids
  | .define decl d => g.update decl fun n => { n with payload := some (.definition d) }
  | .setGlobals size => .ok { g with globals := size }

/-- Carry out edits from left to right. -/
def edits (g : Graph) (es : List Edit) : Except OutOfTable Graph :=
  es.foldlM edit g

/-- The graph that a list of edits builds from nothing. -/
def build (es : List Edit) : Except OutOfTable Graph :=
  edits {} es

@[simp] theorem edits_nil (g : Graph) : g.edits [] = .ok g := rfl

@[simp] theorem edits_cons (g : Graph) (e : Edit) (es : List Edit) :
    g.edits (e :: es) = g.edit e >>= fun g' => g'.edits es := by
  simp [edits, List.foldlM_cons]

end Graph

end Flowgraph
