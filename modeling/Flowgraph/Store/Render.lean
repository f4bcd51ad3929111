import Flowgraph.Decimal.Shortest
import Flowgraph.Store.Frame
import Flowgraph.Text.Quoted

/-!
# Values as text

A value is printed with everything that it reaches through blocks and dictionaries. The
entries of a dictionary are printed in the order of their texts, so that their order in the
dictionary does not show. A value that reaches itself has no text; every other value is
nested at most as deep as the store has places.
-/

namespace Flowgraph

namespace Store

/-- The number of places of blocks and dictionaries. -/
def places (s : Store) : Nat :=
  s.blocks.foldl (fun n elements => n + elements.size) 0
    + s.dicts.foldl (fun n d => n + 2 * d.size) 0

/-- Texts in ascending order, separated by blanks. -/
def joinSorted (texts : List String) : String :=
  " ".intercalate (texts.mergeSort fun a b => decide (a ≤ b))

/-- The text of a value that is nested less than `depth` deep. -/
def renderTo (s : Store) : Nat → Value → String
  | 0, _ => ""
  | depth + 1, v =>
    match v with
    | .nil => "<nil>"
    | .bool b => if b then "true" else "false"
    | .int i => toString i.toInt
    | .float x => renderFloat x
    | .str t => t
    | .slice b => "[" ++ " ".intercalate ((s.block b).toList.map (s.renderTo depth)) ++ "]"
    | .struct b =>
      "\x7b" ++ " ".intercalate ((s.block b).toList.map (s.renderTo depth)) ++ "\x7d"
    | .pointer b i =>
      match s.target? b i with
      | some target => "&" ++ s.renderTo depth target
      | none => "&<dangling>"
    | .map d =>
      let entries := (s.dict d).entries.map fun (k, v) =>
        s.renderTo depth k ++ ":" ++ s.renderTo depth v
      "map[" ++ joinSorted entries ++ "]"
    | .chan c => "chan(" ++ Nat.repr (s.channel c).capacity ++ ")"
    | .func decl _ => "func" ++ decl.label
    | .native name => name

/-- The text of a value, as it is printed. Only a value that leads on to others needs a depth
that depends on the store. -/
def render (s : Store) (v : Value) : String :=
  match v with
  | .slice _ | .struct _ | .pointer _ _ | .map _ => s.renderTo (s.places + 1) v
  | v => s.renderTo 1 v

/-- A value has the text that it has to the depth of the store's places. -/
theorem render_eq_renderTo (s : Store) (v : Value) : s.render v = s.renderTo (s.places + 1) v := by
  cases v <;> simp [render, renderTo]

/-- The texts of values, separated by blanks. -/
def renderLine (s : Store) (vs : List Value) : String :=
  " ".intercalate (vs.map s.render)

/-- The text of a value together with its family. -/
def inspect (s : Store) : Value → String
  | .nil => "Nil"
  | .str t => "Str(" ++ Text.quoted t ++ ")"
  | .int i => "Int(" ++ toString i.toInt ++ ")"
  | .float x => "Float(" ++ renderFloat x ++ ")"
  | .bool b => "Bool(" ++ (if b then "true" else "false") ++ ")"
  | v => v.typeName ++ "(" ++ s.render v ++ ")"

/-- The text of a frame. -/
def inspectFrame (s : Store) (f : FrameId) : String :=
  "Frame \x7b slots: [" ++ ", ".intercalate ((s.slots f).toList.map s.inspect)
    ++ "], has_parent: " ++ (if (s.parent? f).isSome then "true" else "false") ++ " \x7d"

end Store

end Flowgraph
