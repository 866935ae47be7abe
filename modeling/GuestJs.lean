import GuestJs.Builder
import GuestJs.Bundle
import GuestJs.Bundle.Builder
import GuestJs.Catalog
import GuestJs.Errors
import GuestJs.Guest.Activations
import GuestJs.Guest.Detached
import GuestJs.Guest.Lifetime
import GuestJs.Handle.Buffers
import GuestJs.Handle.Iterators
import GuestJs.Handle.Readers
import GuestJs.Handle.Views
import GuestJs.Handle.Writer
import GuestJs.Host.AsyncIterable
import GuestJs.Host.Calls
import GuestJs.Host.ClassDeclaration
import GuestJs.Host.Exceptions
import GuestJs.Host.Iterable
import GuestJs.Host.Modules
import GuestJs.Host.Namespaces
import GuestJs.Host.RealisedClasses
import GuestJs.Host.SharedSink
import GuestJs.Host.SharedStream
import GuestJs.Imports
import GuestJs.Imports.GuestModules
import GuestJs.Imports.Resolver
import GuestJs.Library.Association
import GuestJs.Library.Choice
import GuestJs.Library.Fallible
import GuestJs.Library.FixedWidth
import GuestJs.Library.Fresh
import GuestJs.Library.Fused
import GuestJs.Library.Halting
import GuestJs.Library.Insertions
import GuestJs.Library.Loops
import GuestJs.Library.Merged
import GuestJs.Library.Positions
import GuestJs.Library.Pull
import GuestJs.Library.Results
import GuestJs.Library.Rounding
import GuestJs.Library.Segments
import GuestJs.Library.Tables
import GuestJs.Library.Transition
import GuestJs.Macros.Backend
import GuestJs.Macros.Callback
import GuestJs.Macros.HostClass
import GuestJs.Macros.HostModule
import GuestJs.Macros.Union
import GuestJs.Marshal.Args
import GuestJs.Marshal.Collections
import GuestJs.Marshal.Datum
import GuestJs.Marshal.Deserializer
import GuestJs.Marshal.Encoding
import GuestJs.Marshal.Native
import GuestJs.Marshal.PlainEngine
import GuestJs.Marshal.Primitives
import GuestJs.Marshal.Realm
import GuestJs.Marshal.Serializer
import GuestJs.Marshal.Visitor
import GuestJs.Proof.ActivityNesting
import GuestJs.Proof.Agreement
import GuestJs.Proof.ArmedCode
import GuestJs.Proof.Awaiting
import GuestJs.Proof.BackendNames
import GuestJs.Proof.BorrowMoves
import GuestJs.Proof.BufferStore
import GuestJs.Proof.BufferWrites
import GuestJs.Proof.BuilderOrder
import GuestJs.Proof.BundleFiles
import GuestJs.Proof.CallArguments
import GuestJs.Proof.CatalogOwnership
import GuestJs.Proof.ClassIdentity
import GuestJs.Proof.ClassMembers
import GuestJs.Proof.ClassObjects
import GuestJs.Proof.Crossings
import GuestJs.Proof.Deserialization
import GuestJs.Proof.FailedLoads
import GuestJs.Proof.GuardedEntry
import GuestJs.Proof.GuestRegistry
import GuestJs.Proof.HostExceptions
import GuestJs.Proof.Idleness
import GuestJs.Proof.Installation
import GuestJs.Proof.Integers
import GuestJs.Proof.Interruption
import GuestJs.Proof.Isolation
import GuestJs.Proof.IterableOrder
import GuestJs.Proof.IteratorClose
import GuestJs.Proof.LoanAccounting
import GuestJs.Proof.LoanTable
import GuestJs.Proof.MapRoundTrip
import GuestJs.Proof.MemberEntries
import GuestJs.Proof.ModuleExports
import GuestJs.Proof.MountStability
import GuestJs.Proof.Namespaces
import GuestJs.Proof.NativeRoundTrip
import GuestJs.Proof.OrdinaryObjects
import GuestJs.Proof.Outcomes
import GuestJs.Proof.PayloadGuards
import GuestJs.Proof.PendingExports
import GuestJs.Proof.PrototypeChains
import GuestJs.Proof.QuietHeaps
import GuestJs.Proof.Reading
import GuestJs.Proof.RelativeNames
import GuestJs.Proof.Resolution
import GuestJs.Proof.ReturnOrder
import GuestJs.Proof.RoundTrip
import GuestJs.Proof.Serialization
import GuestJs.Proof.Silence
import GuestJs.Proof.SinkContract
import GuestJs.Proof.SinkOrder
import GuestJs.Proof.StreamOrder
import GuestJs.Proof.UnionChoice
import GuestJs.Proof.ViewSlots
import GuestJs.Proof.Wakeups
import GuestJs.Proof.WriterSink
import GuestJs.QuickJs.BareEngine
import GuestJs.QuickJs.Bigints
import GuestJs.QuickJs.Captures
import GuestJs.QuickJs.ClassEngine
import GuestJs.QuickJs.Crossings
import GuestJs.QuickJs.ErrorEngine
import GuestJs.QuickJs.IteratorEngine
import GuestJs.QuickJs.Leases
import GuestJs.QuickJs.Lending
import GuestJs.QuickJs.Memory
import GuestJs.QuickJs.ModuleEngine
import GuestJs.QuickJs.NativeModules
import GuestJs.QuickJs.Operation
import GuestJs.QuickJs.ProxyEngine
import GuestJs.QuickJs.ViewEngine
