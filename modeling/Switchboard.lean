import Switchboard.Background
import Switchboard.Chain
import Switchboard.Cli.Options
import Switchboard.Cli.Report
import Switchboard.Cli.Shell
import Switchboard.Diagnostics
import Switchboard.Dispatcher
import Switchboard.Main
import Switchboard.Manifest
import Switchboard.Manifest.Source
import Switchboard.Name
import Switchboard.Number.Binary
import Switchboard.Number.Decimal
import Switchboard.Number.Power
import Switchboard.Number.Shortest
import Switchboard.Number.Whole
import Switchboard.ParamType
import Switchboard.Parsers
import Switchboard.Pool
import Switchboard.Proofs.Attempts
import Switchboard.Proofs.Background
import Switchboard.Proofs.Binding
import Switchboard.Proofs.ByteScans
import Switchboard.Proofs.ChainRuns
import Switchboard.Proofs.Manifests
import Switchboard.Proofs.ParserChanges
import Switchboard.Proofs.Parsing
import Switchboard.Proofs.Pools
import Switchboard.Proofs.ReaderRuns
import Switchboard.Proofs.Reading
import Switchboard.Proofs.Registration.Additions
import Switchboard.Proofs.Registration.Agreement
import Switchboard.Proofs.Registration.AliasLists
import Switchboard.Proofs.Registration.Consistent
import Switchboard.Proofs.Registration.Defaults
import Switchboard.Proofs.Registration.Everywhere
import Switchboard.Proofs.Registration.Failure
import Switchboard.Proofs.Registration.Groups
import Switchboard.Proofs.Registration.Insertion
import Switchboard.Proofs.Registration.Kept
import Switchboard.Proofs.Registration.Keys
import Switchboard.Proofs.Registration.Lookup
import Switchboard.Proofs.Registration.Named
import Switchboard.Proofs.Registration.Order
import Switchboard.Proofs.Registration.Origins
import Switchboard.Proofs.Registration.Paths
import Switchboard.Proofs.Registration.Places
import Switchboard.Proofs.Registration.Reachable
import Switchboard.Proofs.Registration.Staging
import Switchboard.Proofs.Registration.TrailingDefaults
import Switchboard.Proofs.Registration.Walks
import Switchboard.Proofs.Rereading
import Switchboard.Proofs.Resolution.Checked
import Switchboard.Proofs.Resolution.Context
import Switchboard.Proofs.Resolution.Delivered
import Switchboard.Proofs.Resolution.Entries
import Switchboard.Proofs.Resolution.Grammar
import Switchboard.Proofs.Resolution.Grounded
import Switchboard.Proofs.Resolution.LeftToRight
import Switchboard.Proofs.Resolution.Offers
import Switchboard.Proofs.Resolution.Omitted
import Switchboard.Proofs.Resolution.Outcome
import Switchboard.Proofs.Resolution.Place
import Switchboard.Proofs.Resolution.Printed
import Switchboard.Proofs.Resolution.Respelled
import Switchboard.Proofs.Templates
import Switchboard.Proofs.TypeNames
import Switchboard.Proofs.Writing
import Switchboard.Reader
import Switchboard.Registrar
import Switchboard.Spec
import Switchboard.StableSort
import Switchboard.Table
import Switchboard.Template
import Switchboard.Text.Blank
import Switchboard.Text.CaseTable
import Switchboard.Text.LowerCase
import Switchboard.Text.Quoted
import Switchboard.Text.Ranges
import Switchboard.Text.Shown
import Switchboard.Text.Words
import Switchboard.Toml.Document
import Switchboard.Toml.Item
import Switchboard.Toml.Lexeme
import Switchboard.Toml.Number
import Switchboard.Trailing
import Switchboard.Tree
import Switchboard.Value
import Switchboard.Verbosity
