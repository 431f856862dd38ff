import Descriptor.Cli.Program
import Descriptor.Main
import Descriptor.Proofs.Cli.Fallback
import Descriptor.Proofs.CoreMetadata.Trimming
import Descriptor.Proofs.CoreMetadata.Writing
import Descriptor.Proofs.Ini.Record
import Descriptor.Proofs.Project.Reading
import Descriptor.Proofs.Requirement.Conservation
import Descriptor.Proofs.Requirement.Meaning
import Descriptor.Proofs.Script.Forwarding
import Descriptor.Proofs.Script.Redaction
import Descriptor.Shell.Run
import Descriptor.Text.Escaped
import Descriptor.Proofs.Script.Provenance
import Descriptor.Proofs.Script.Guard
import Descriptor.Proofs.Text.Digits
import Descriptor.Proofs.Json.Writing
import Descriptor.Proofs.Record.Json
import Descriptor.Proofs.Record.Toml
import Descriptor.Proofs.Settings.Store
import Descriptor.Proofs.Cli.Assignment
import Descriptor.Proofs.Script.Segment
import Descriptor.Proofs.Script.Spelling
import Descriptor.Ini.Catalog
import Descriptor.Proofs.Ini.Catalog
import Descriptor.Proofs.Ini.Trivia
import Descriptor.Proofs.Ini.FirstFault
import Descriptor.Proofs.Script.Unfolding
import Descriptor.Proofs.Cli.Reentry
import Descriptor.Proofs.Cli.Strictness
import Descriptor.Proofs.Session.Opening
import Descriptor.Proofs.Session.Verbosity
import Descriptor.Proofs.Build.Provision
import Descriptor.Proofs.Build.Listing
import Descriptor.Proofs.Python.Environment
import Descriptor.Proofs.Session.Lifecycle
import Descriptor.Proofs.Script.Whole
import Descriptor.Proofs.Script.Source.Module
import Descriptor.Proofs.Script.Fault
