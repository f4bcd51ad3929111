import Flowgraph.Lifetime
import Flowgraph.Machine.Host
import Flowgraph.Native.Probe
import Flowgraph.Proofs.Upkeep.Operation
import Flowgraph.Proofs.Activation
import Flowgraph.Proofs.Contents
import Flowgraph.Proofs.Scope.Frames
import Flowgraph.Proofs.Scope.Operands
import Flowgraph.Proofs.Scope.Chains
import Flowgraph.Proofs.Natives
import Flowgraph.Proofs.Scope.Advance
import Flowgraph.Proofs.Scope.Soundness
import Flowgraph.Proofs.Call.Lockstep
import Flowgraph.Proofs.Call.Everywhere
import Flowgraph.Proofs.Writes.Spared
import Flowgraph.Proofs.Writes.Places
import Flowgraph.Proofs.Writes.Beyond
import Flowgraph.Proofs.Writes.Crew
import Flowgraph.Proofs.Close.Deeds
import Flowgraph.Proofs.Close.Traces
import Flowgraph.Proofs.Upkeep.Advance
import Flowgraph.Proofs.Close.Effects
import Flowgraph.Proofs.Close.Exchange
import Flowgraph.Proofs.Close.Moves
import Flowgraph.Proofs.Close.Alone
import Flowgraph.Proofs.Close.Final
import Flowgraph.Proofs.Streams.Conserved
import Flowgraph.Proofs.Streams.Transfer
import Flowgraph.Proofs.Release.Safe
import Flowgraph.Proofs.Locality
import Flowgraph.Proofs.Abort.Raises
import Flowgraph.Proofs.Abort.Account
import Flowgraph.Proofs.Abort.Chains
import Flowgraph.Proofs.Drive
import Flowgraph.Proofs.Depth.Limited
import Flowgraph.Proofs.Depth.Nesting
import Flowgraph.Proofs.Depth.Exact
import Flowgraph.Proofs.Stops.Operation
import Flowgraph.Proofs.Stops.Chains
import Flowgraph.Proofs.Closed.Chains
import Flowgraph.Proofs.Closed.Panics
import Flowgraph.Proofs.Halting.Forward
import Flowgraph.Proofs.Halting.Measure
import Flowgraph.Proofs.Halting.Runs
import Flowgraph.Proofs.Apart.Alone
import Flowgraph.Proofs.Apart.Binding
import Flowgraph.Proofs.Apart.Together
import Flowgraph.Proofs.Tasks.Accounts
import Flowgraph.Proofs.Hands.Values
import Flowgraph.Proofs.Spawn.Arguments
import Flowgraph.Proofs.Pointers.Exact
import Flowgraph.Proofs.Tasks.Joins
import Flowgraph.Proofs.Assign.Simultaneous
import Flowgraph.Proofs.Results.Positional
import Flowgraph.Proofs.Loops.Sequences
import Flowgraph.Proofs.Loops.Maps
import Flowgraph.Proofs.Faults.Runs
import Flowgraph.Proofs.Texts.Views
import Flowgraph.Proofs.Loops.Surveys
import Flowgraph.Proofs.Zeros.Apart
import Flowgraph.Proofs.Paths.Agreement
import Flowgraph.Proofs.Switches.Cases
import Flowgraph.Proofs.Literals.Agreement
import Flowgraph.Proofs.Maps.Functions
import Flowgraph.Proofs.Operators.Order
import Flowgraph.Proofs.Printing.Contents
import Flowgraph.Proofs.Output.Merge
import Flowgraph.Proofs.Resolution
import Flowgraph.Proofs.Identity
