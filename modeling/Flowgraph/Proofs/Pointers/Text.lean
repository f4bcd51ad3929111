import Mathlib.Tactic.Common
import Flowgraph.Proofs.Pointers.Bounds

/-!
# Texts without dangling pointers

A pointer that dangles has a text of its own. Where all pointers are bounded, the text of a value
does not depend on what that text is, so it occurs nowhere.
-/

namespace Flowgraph

namespace Store

variable {s : Store} {v : Value}

/-- The text of a value that is nested less than `depth` deep, where a pointer that dangles has the
text `dangling`. -/
def renderOr (s : Store) (dangling : String) : Nat → Value → String
  | 0, _ => ""
  | depth + 1, v =>
    match v with
    | .slice b =>
      "[" ++ " ".intercalate ((s.block b).toList.map (s.renderOr dangling depth)) ++ "]"
    | .struct b =>
      "\x7b" ++ " ".intercalate ((s.block b).toList.map (s.renderOr dangling depth)) ++ "\x7d"
    | .pointer b i =>
      match s.target? b i with
      | some target => "&" ++ s.renderOr dangling depth target
      | none => dangling
    | .map d =>
      let entries := (s.dict d).entries.map fun (k, v) =>
        s.renderOr dangling depth k ++ ":" ++ s.renderOr dangling depth v
      "map[" ++ joinSorted entries ++ "]"
    | v => s.renderTo 1 v

/-- The text of a pointer that dangles is all that is left open. -/
theorem renderOr_eq_renderTo (depth : Nat) (v : Value) :
    s.renderOr "&<dangling>" depth v = s.renderTo depth v := by
  induction depth generalizing v with
  | zero => simp only [renderOr, renderTo]
  | succ depth ih =>
    have hsame : s.renderOr "&<dangling>" depth = s.renderTo depth := funext ih
    cases v with
    | pointer b i =>
      cases ht : s.target? b i <;> simp only [renderOr, renderTo, hsame, ht]
    | _ => simp only [renderOr, renderTo, hsame]

/-- Where all pointers are bounded, no text says that a pointer dangles. -/
theorem renderOr_eq_of_bounded (hs : s.Holds (Value.Bounded s)) (hv : v.Bounded s)
    (dangling : String) (depth : Nat) : s.renderOr dangling depth v = s.renderTo depth v := by
  induction depth generalizing v with
  | zero => simp only [renderOr, renderTo]
  | succ depth ih =>
    have hblock : ∀ b : BlockId, (s.block b).toList.map (s.renderOr dangling depth) =
        (s.block b).toList.map (s.renderTo depth) := by
      intro b
      refine List.map_congr_left fun w hw => ih (hs.block b w (Array.mem_def.mpr hw))
    cases v with
    | slice b => simp only [renderOr, renderTo, hblock]
    | struct b => simp only [renderOr, renderTo, hblock]
    | pointer b i =>
      have hi : i < (s.block b).size := hv b i rfl
      have htarget : s.target? b i = some (s.block b)[i] := Array.getElem?_eq_getElem hi
      simp only [renderOr, renderTo, htarget]
      rw [ih (hs.block b _ (Array.getElem_mem hi))]
    | map d =>
      have hentries : ((s.dict d).entries.map fun (k, v) =>
          s.renderOr dangling depth k ++ ":" ++ s.renderOr dangling depth v) =
          (s.dict d).entries.map fun (k, v) => s.renderTo depth k ++ ":" ++ s.renderTo depth v := by
        refine List.map_congr_left fun e he => ?_
        obtain ⟨hkey, hvalue⟩ := hs.dict d e he
        dsimp only
        rw [ih hkey, ih hvalue]
      simp only [renderOr, renderTo, hentries]
    | _ => simp only [renderOr, renderTo]

end Store

end Flowgraph
