import Backplane.Bundle.Blueprint
import Backplane.Bundle.Depot
import Backplane.Bundle.Reference
import Backplane.Contract.Identity
import Backplane.Contract.Login
import Backplane.Contract.Scoring
import Backplane.Contract.WordFilter
import Backplane.Distinct
import Backplane.Environment.Basic
import Backplane.Environment.Claims
import Backplane.Environment.Consult
import Backplane.Environment.Perform
import Backplane.Environment.Publish
import Backplane.Folder
import Backplane.Keyed
import Backplane.Lifecycle.Answer
import Backplane.Lifecycle.Member
import Backplane.Lifecycle.Rack
import Backplane.Lifecycle.Registrations
import Backplane.Lifecycle.Stages
import Backplane.Lifecycle.Unload
import Backplane.Log
import Backplane.Log.Entry
import Backplane.Main
import Backplane.Manifest.Basic
import Backplane.Manifest.Text
import Backplane.Module.Behaviour
import Backplane.Module.Call
import Backplane.Module.Error
import Backplane.Module.Script
import Backplane.Module.Stage
import Backplane.Plan.Basic
import Backplane.Plan.Order
import Backplane.Proofs.Bundle.Depot
import Backplane.Proofs.Bundle.Opening
import Backplane.Proofs.Bundle.Outline
import Backplane.Proofs.Bundle.Reference
import Backplane.Proofs.Contract.Casing
import Backplane.Proofs.Contract.Login
import Backplane.Proofs.Contract.Pieces
import Backplane.Proofs.Contract.Scoring
import Backplane.Proofs.Contract.WordFilter
import Backplane.Proofs.Distinct
import Backplane.Proofs.Environment.Actions
import Backplane.Proofs.Environment.Annals
import Backplane.Proofs.Environment.Claims
import Backplane.Proofs.Environment.Dossiers
import Backplane.Proofs.Environment.Installing
import Backplane.Proofs.Environment.Moves
import Backplane.Proofs.Environment.Outline
import Backplane.Proofs.Environment.Publishing
import Backplane.Proofs.Environment.Sound
import Backplane.Proofs.Folder
import Backplane.Proofs.Keyed
import Backplane.Proofs.Lifecycle.Commitment
import Backplane.Proofs.Lifecycle.Course
import Backplane.Proofs.Lifecycle.Entries
import Backplane.Proofs.Lifecycle.Incidents
import Backplane.Proofs.Lifecycle.Installing
import Backplane.Proofs.Lifecycle.Lifeline
import Backplane.Proofs.Lifecycle.Loading
import Backplane.Proofs.Lifecycle.Lodging
import Backplane.Proofs.Lifecycle.Member
import Backplane.Proofs.Lifecycle.Moments
import Backplane.Proofs.Lifecycle.Outline
import Backplane.Proofs.Lifecycle.Passages
import Backplane.Proofs.Lifecycle.Passes
import Backplane.Proofs.Lifecycle.Rack
import Backplane.Proofs.Lifecycle.Records
import Backplane.Proofs.Lifecycle.Refusals
import Backplane.Proofs.Lifecycle.Registrations
import Backplane.Proofs.Lifecycle.Roll
import Backplane.Proofs.Lifecycle.Stages
import Backplane.Proofs.Lifecycle.Teardown
import Backplane.Proofs.Lifecycle.Tenure
import Backplane.Proofs.Lifecycle.Timeline
import Backplane.Proofs.Lifecycle.Unloading
import Backplane.Proofs.Manifest.RoundTrip
import Backplane.Proofs.Plan.Basic
import Backplane.Proofs.Plan.Counts
import Backplane.Proofs.Plan.Cycles
import Backplane.Proofs.Plan.Order
import Backplane.Proofs.Plan.Outline
import Backplane.Proofs.Plan.Verdict
import Backplane.Proofs.Plan.Walk
import Backplane.Proofs.Random.Period
import Backplane.Proofs.Random.Residues
import Backplane.Proofs.Random.Shares
import Backplane.Proofs.Random.Stream
import Backplane.Proofs.Registry.Accounting
import Backplane.Proofs.Registry.Book
import Backplane.Proofs.Registry.Consultation
import Backplane.Proofs.Registry.Filing
import Backplane.Proofs.Registry.Guests
import Backplane.Proofs.Registry.Listings
import Backplane.Proofs.Registry.Lookups
import Backplane.Proofs.Registry.Retirement
import Backplane.Proofs.Registry.Rosters
import Backplane.Proofs.Registry.Services
import Backplane.Proofs.Registry.Sojourns
import Backplane.Proofs.Registry.Tickets
import Backplane.Proofs.Session.Advice
import Backplane.Proofs.Session.Claims
import Backplane.Proofs.Session.Commitment
import Backplane.Proofs.Session.Consultations
import Backplane.Proofs.Session.Contracts
import Backplane.Proofs.Session.Dependencies
import Backplane.Proofs.Session.Endings
import Backplane.Proofs.Session.Lawful
import Backplane.Proofs.Session.Leftovers
import Backplane.Proofs.Session.Lifelines
import Backplane.Proofs.Session.Load
import Backplane.Proofs.Session.Moments
import Backplane.Proofs.Session.Outline
import Backplane.Proofs.Session.Quiescence
import Backplane.Proofs.Session.Reachable
import Backplane.Proofs.Session.Records
import Backplane.Proofs.Session.Refusals
import Backplane.Proofs.Session.RoundTrip
import Backplane.Proofs.Session.Unburdened
import Backplane.Proofs.Session.Unload
import Backplane.Proofs.Session.Withdrawals
import Backplane.Proofs.Stepwise
import Backplane.Proofs.Toml.Statements
import Backplane.Proofs.Toml.Strings
import Backplane.Proofs.Zone.Host
import Backplane.Proofs.Zone.Modules
import Backplane.Proofs.Zone.Settings
import Backplane.Random.Xorshift
import Backplane.Registry.Advisors
import Backplane.Registry.Book
import Backplane.Registry.Broker
import Backplane.Registry.Capability
import Backplane.Registry.Interfaces
import Backplane.Registry.Service
import Backplane.Registry.Usage
import Backplane.Session.Basic
import Backplane.Text.Alphanumeric
import Backplane.Text.Blank
import Backplane.Text.Cased
import Backplane.Text.Hex
import Backplane.Text.Lowercase
import Backplane.Text.Pattern
import Backplane.Text.Pattern.Atom
import Backplane.Text.Pattern.Bracket
import Backplane.Text.Pattern.Nesting
import Backplane.Text.Printable
import Backplane.Text.Quoted
import Backplane.Text.Ranges
import Backplane.Text.Similar
import Backplane.Text.Terminal
import Backplane.Toml.Document
import Backplane.Toml.Field
import Backplane.Toml.Lexeme
import Backplane.Toml.Number
import Backplane.Toml.Quote
import Backplane.Toml.Statement
import Backplane.Toml.Value
import Backplane.Toml.Written
import Backplane.Zone.CommandLine
import Backplane.Zone.Host
import Backplane.Zone.LogFilter
import Backplane.Zone.Modules
import Backplane.Zone.Settings
