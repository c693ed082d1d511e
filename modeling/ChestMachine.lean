import ChestMachine.Inventory.Units
import ChestMachine.Main
import ChestMachine.Proofs.Delivery
import ChestMachine.Proofs.Layout
import ChestMachine.Proofs.Call.Prepared
import ChestMachine.Proofs.Call.Restore
import ChestMachine.Proofs.Call.Conservation
import ChestMachine.Proofs.Call.Layout
import ChestMachine.Proofs.Call.Orders
import ChestMachine.Proofs.Context
import ChestMachine.Proofs.Builtin.Store
import ChestMachine.Proofs.Builtin.Boxes
import ChestMachine.Proofs.Builtin.Capacity
import ChestMachine.Proofs.Route
import ChestMachine.Proofs.Surfacing
import ChestMachine.Proofs.Run.Capacity
import ChestMachine.Proofs.Call.Room
import ChestMachine.Proofs.Pulling
import ChestMachine.Proofs.Call.Operands
import ChestMachine.Proofs.Builtin.Faults
import ChestMachine.Proofs.Filling
import ChestMachine.Proofs.Refilling
import ChestMachine.Proofs.Maps
import ChestMachine.Proofs.Places
import ChestMachine.Proofs.Builtin.Loss
import ChestMachine.Proofs.Run.Steps
import ChestMachine.Proofs.Rendering
import ChestMachine.Proofs.Run.Exchange
import ChestMachine.Proofs.Builtin.RoundTrip
import ChestMachine.Proofs.Builtin.Keys
import ChestMachine.Proofs.Run.StoreLoop
import ChestMachine.Proofs.Run.Resume
import ChestMachine.Proofs.Run.Dispatches
import ChestMachine.Proofs.Run.Cap
import ChestMachine.Proofs.Run.Composition
import ChestMachine.Proofs.Run.ReturnTokens
import ChestMachine.Proofs.Slotwise
import ChestMachine.Proofs.Counting
import ChestMachine.Proofs.Bench
import ChestMachine.Proofs.Sameness
import ChestMachine.Proofs.Pouring
import ChestMachine.Proofs.Draining
import ChestMachine.Proofs.Runs
import ChestMachine.Proofs.Builtin.Dealing
import ChestMachine.Proofs.Builtin.Fetching
import ChestMachine.Proofs.Builtin.Smelting
import ChestMachine.Proofs.OneUnit
import ChestMachine.Proofs.Selection
import ChestMachine.Proofs.Emptying
import ChestMachine.Proofs.Similarity
import ChestMachine.Proofs.Legibility
import ChestMachine.Proofs.RunLengths
import ChestMachine.Proofs.Occupancy
import ChestMachine.Proofs.Stacking
import ChestMachine.Proofs.Json.Configs
