import CxxScript.Main
import CxxScript.Proofs.Host.Leads
import CxxScript.Proofs.Host.Counting
import CxxScript.Proofs.Host.Ways
import CxxScript.Proofs.Host.Raising
import CxxScript.Proofs.Host.Adding
import CxxScript.Proofs.Host.Masking
import CxxScript.Proofs.Host.Alike
import CxxScript.Proofs.Host.Agreeing
import CxxScript.Proofs.Path.Relocation
import CxxScript.Proofs.Path.Collapsing
import CxxScript.Proofs.Path.Normalizing
import CxxScript.Proofs.Path.Canonical
import CxxScript.Proofs.Host.Resolution
import CxxScript.Proofs.Source.Copying
import CxxScript.Proofs.Source.Privacy
import CxxScript.Proofs.Source.Records
import CxxScript.Proofs.Build.Finding
import CxxScript.Proofs.Build.Scanning
import CxxScript.Proofs.Build.Effects
import CxxScript.Proofs.Build.Collection
import CxxScript.Proofs.Build.Order
import CxxScript.Proofs.Build.Keys
import CxxScript.Proofs.Build.Termination
import CxxScript.Proofs.Build.Artifacts
import CxxScript.Proofs.Build.Executables
import CxxScript.Proofs.Build.Launching
import CxxScript.Proofs.Build.Clearing
import CxxScript.Proofs.Build.Choosing
import CxxScript.Proofs.Build.Faults
import CxxScript.Proofs.Build.Failing
import CxxScript.Proofs.Build.Retrying
import CxxScript.Proofs.Build.Copying
import CxxScript.Proofs.Build.Leaving
import CxxScript.Proofs.Build.Making
import CxxScript.Proofs.Build.Accounting
import CxxScript.Proofs.Build.Tidying
import CxxScript.Proofs.Cli.Leftovers
import CxxScript.Proofs.Build.Working
import CxxScript.Proofs.Cli.Ending
import CxxScript.Proofs.Build.Resolving
import CxxScript.Proofs.Build.Running
import CxxScript.Proofs.Build.Commanding
import CxxScript.Proofs.Build.Overriding
import CxxScript.Proofs.Build.Persisting
import CxxScript.Proofs.Build.Wordless
import CxxScript.Proofs.Build.Mentions
import CxxScript.Proofs.Build.Course
import CxxScript.Proofs.Build.Twins
import CxxScript.Proofs.Build.Agreeing
import CxxScript.Proofs.Build.Isolation
import CxxScript.Proofs.Build.Removing
import CxxScript.Proofs.Host.Unmarked
import CxxScript.Proofs.Build.Reading
import CxxScript.Proofs.Build.Interrupting
import CxxScript.Proofs.Flags
import CxxScript.Proofs.Text.Splitting
import CxxScript.Proofs.Text.Joining
import CxxScript.Proofs.Text.Posix
import CxxScript.Proofs.Text.Trimming
import CxxScript.Proofs.Source.Grammar
import CxxScript.Proofs.Package.Stripping
import CxxScript.Proofs.Build.Requests
import CxxScript.Proofs.Source.Marking
import CxxScript.Proofs.Build.Reporting
import CxxScript.Proofs.Build.Restarting
import CxxScript.Proofs.Cli.Apportioning
import CxxScript.Proofs.Cli.Keeping
import CxxScript.Proofs.Cli.Precedence
import CxxScript.Proofs.Build.Remembering
import CxxScript.Proofs.Build.Recalling
import CxxScript.Proofs.Source.Including
import CxxScript.Proofs.Source.Literals
import CxxScript.Proofs.Source.LineEnds
import CxxScript.Proofs.Build.LineEnds
