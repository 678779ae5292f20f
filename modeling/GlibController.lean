import GlibController.Lib.Word
import GlibController.Lib.Loop
import GlibController.Lib.Machine
import GlibController.Lib.Walk
import GlibController.Lib.Reentrancy
import GlibController.Lib.Parties
import GlibController.Lib.Observation
import GlibController.Lib.Reachability
import GlibController.Lib.Countdown
import GlibController.GLib.Array
import GlibController.GLib.PtrArray
import GlibController.IndexSet.Model
import GlibController.IndexSet.Contents
import GlibController.IndexSet.Runs
import GlibController.IndexSet.Order
import GlibController.IndexSet.Initialise
import GlibController.IndexSet.Enumerate
import GlibController.IndexSet.Safety
import GlibController.IndexSet.Navigation
import GlibController.IndexSet.Memory
import GlibController.IndexSet.Refinement
import GlibController.IndexSet.Copy
import GlibController.IndexSet.Returns
import GlibController.IndexSet.Effects
import GlibController.IndexSet.Owners
import GlibController.IndexSet.Beside
import GlibController.IndexSet.Threads
import GlibController.IndexSet.Linearise
import GlibController.IndexSet.Abstraction
import GlibController.IndexSet.FullAbstraction
import GlibController.Event.Model
import GlibController.Event.Contents
import GlibController.Event.Build
import GlibController.Event.Types
import GlibController.Event.LifeCycle
import GlibController.Event.Readers
import GlibController.Event.Errors
import GlibController.Event.Handlers
import GlibController.Event.Properties
import GlibController.Storage.Controller
import GlibController.Storage.Holding
import GlibController.Storage.Lockstep
import GlibController.Storage.Reentrancy
import GlibController.Storage.Nesting
import GlibController.Ownership.System
import GlibController.Ownership.Accounting
import GlibController.Ownership.Emission
import GlibController.Ownership.Clients
import GlibController.Ownership.Collection
import GlibController.Ownership.Teardown
import GlibController.SimpleModel.Model
import GlibController.SimpleModel.Books
import GlibController.SimpleModel.Reports
import GlibController.SimpleModel.TextList
import GlibController.SimpleModel.Simulation
import GlibController.SimpleModel.Runs
