import Flowgraph.Native.Standard

/-!
# Probe natives

Natives that exercise each kind of reply: results that depend on all arguments, a call in the
native's place, a fault, a panic with and without a text, and a look at the configuration.
-/

namespace Flowgraph

namespace Native

/-- The arguments in reverse order. -/
def reverse : Native := fun _ _ args => .results args.reverse

/-- Call the first argument with the others. -/
def apply : Native := fun _ _ args => .call (args.headD .nil) args.tail

/-- Fault, and say how many arguments there were. -/
def fail : Native := fun _ _ args => refuse "test.fail" (Nat.repr args.length ++ " args")

/-- Panic, with a text unless the arguments are something else than one text. -/
def crash : Native
  | _, _, [] => .stop (.panic (some "test boom"))
  | _, _, [.str t] => .stop (.panic (some ("test " ++ t)))
  | _, _, _ => .stop (.panic none)

/-- The depth limit, or zero without a limit. -/
def limit : Native := fun config _ _ => .results [.ofNat (config.maxCallDepth.getD 0)]

/-- The probe of that name. -/
def probe? : String → Option Native
  | "test.rev" => some reverse
  | "test.apply" => some apply
  | "test.fail" => some fail
  | "test.panic" => some crash
  | "test.limit" => some limit
  | _ => none

end Native

/-- The standard natives and the probes. -/
def Registry.probing : Registry :=
  standard
    |>.register "test.rev" Native.reverse none
    |>.register "test.apply" Native.apply none
    |>.register "test.fail" Native.fail none
    |>.register "test.panic" Native.crash none
    |>.register "test.limit" Native.limit none

end Flowgraph
