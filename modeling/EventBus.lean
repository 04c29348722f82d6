import EventBus.Table
import EventBus.EventType
import EventBus.Hierarchy
import EventBus.HierarchyCache
import EventBus.Text.Printable
import EventBus.Text.Combining
import EventBus.Text.Quoted
import EventBus.Text.Decimal
import EventBus.Text.Record
import EventBus.Error
import EventBus.Event
import EventBus.Handler
import EventBus.HandlerMap
import EventBus.Registry
import EventBus.Discovery
import EventBus.Trace
import EventBus.Queue
import EventBus.Bus
import EventBus.World
import EventBus.Machine.Program
import EventBus.Machine.Step
import EventBus.EventLog
import EventBus.Scenario.Catalogue
import EventBus.Scenario.Recipe
import EventBus.Scenario.Script
import EventBus.Scenario.Answer
import EventBus.Scenario.Cast
import EventBus.Scenario.Inquiry
import EventBus.Scenario.Play
import EventBus.Scenario.Construction
import EventBus.Source.Token
import EventBus.Source.Lexer
import EventBus.Source.SyntaxError
import EventBus.Source.Number
import EventBus.Source.Separated
import EventBus.Source.Reader
import EventBus.Source.Grammar
import EventBus.Source.Attribute
import EventBus.Source.Path
import EventBus.Source.Generics
import EventBus.Source.Bound
import EventBus.Source.Type
import EventBus.Source.Pattern
import EventBus.Source.Expression
import EventBus.Source.Signature
import EventBus.Source.Data
import EventBus.Source.Block
import EventBus.Source.Declaration
import EventBus.Source.Nesting
import EventBus.Expansion.Event
import EventBus.Expansion.Subscriber
import EventBus.Proofs.Worlds
import EventBus.Proofs.Forest
import EventBus.Proofs.Runs
import EventBus.Proofs.Conduct
import EventBus.Proofs.DispatchOrder
import EventBus.Proofs.Registries
import EventBus.Proofs.Routing
import EventBus.Proofs.Stacks
import EventBus.Proofs.Moves
import EventBus.Proofs.Lanes
import EventBus.Proofs.Crews
import EventBus.Proofs.QueueOrder
import EventBus.Proofs.Threads
import EventBus.Proofs.Journals
import EventBus.Proofs.Unwinding
import EventBus.Proofs.Contents
import EventBus.Proofs.Histories
import EventBus.Proofs.Registrations
import EventBus.Proofs.DeadLetters
import EventBus.Proofs.Accounts
import EventBus.Proofs.Returns
import EventBus.Proofs.Owners
import EventBus.Proofs.Isolation
import EventBus.Proofs.Withdrawals
import EventBus.Proofs.Snapshots
import EventBus.Proofs.Departures
import EventBus.Proofs.Interleaving
import EventBus.Proofs.Parallel
import EventBus.Proofs.Derivations
import EventBus.Proofs.Projections
import EventBus.Proofs.Verdicts
import EventBus.Proofs.Views
import EventBus.Proofs.Distances
import EventBus.Proofs.Lookups
import EventBus.Proofs.FirstAnswers
import EventBus.Proofs.Spellings
import EventBus.Proofs.Pairings
import EventBus.Proofs.Turns
import EventBus.Proofs.Falls
import EventBus.Proofs.Containment
import EventBus.Proofs.Membership
import EventBus.Proofs.Discoveries
import EventBus.Proofs.Readings
import EventBus.Proofs.Subscriptions
import EventBus.Proofs.Listings
import EventBus.Proofs.Groupings
import EventBus.Proofs.Representation
import EventBus.Proofs.Calls
import EventBus.Proofs.Entries
import EventBus.Proofs.Drains
