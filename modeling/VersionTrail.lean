import VersionTrail.Analysis
import VersionTrail.History.Script
import VersionTrail.Main
import VersionTrail.Proofs.OrderedMap
import VersionTrail.Proofs.Run
import VersionTrail.Proofs.Text.Numeral
import VersionTrail.Proofs.Text.Search
import VersionTrail.Proofs.Output.Strictness
import VersionTrail.Proofs.Template.Printing
import VersionTrail.Proofs.Pattern.Captures
import VersionTrail.Proofs.Bump.Replay
import VersionTrail.Proofs.Source.Qualifying
import VersionTrail.Proofs.Source.FirstQualifying
import VersionTrail.Proofs.Config.Validation
import VersionTrail.Proofs.Analysis.Validated
import VersionTrail.Proofs.Template.Lookahead
import VersionTrail.Proofs.Template.Reading
import VersionTrail.Proofs.Template.Unclosed
import VersionTrail.Proofs.Bump.Exactness
import VersionTrail.Proofs.Source.Reaching
import VersionTrail.Proofs.Analysis.Resolving
import VersionTrail.Proofs.Analysis.Growth
import VersionTrail.Proofs.Analysis.Tagging
import VersionTrail.Proofs.Output.Staging
import VersionTrail.Proofs.Template.Factoring
import VersionTrail.Proofs.Output.Factoring
import VersionTrail.Proofs.Analysis.Consistency
import VersionTrail.Proofs.Pattern.Sweep
import VersionTrail.Proofs.Pattern.Reading
import VersionTrail.Proofs.Pattern.Standard
import VersionTrail.Proofs.Pattern.VersionName
import VersionTrail.Proofs.Bump.Counting
import VersionTrail.Proofs.Analysis.Standard
import VersionTrail.Proofs.Bump.Grammar
import VersionTrail.Proofs.Calendar.Showing
import VersionTrail.Proofs.Analysis.Dates
import VersionTrail.Proofs.Source.Stability
import VersionTrail.Proofs.Source.FirstParents
import VersionTrail.Proofs.Output.Exchange
import VersionTrail.Proofs.Calc.Reading
import VersionTrail.Proofs.Source.LastTags
import VersionTrail.Proofs.Branch.Precedence
import VersionTrail.Proofs.Analysis.Isolation
import VersionTrail.Proofs.Output.Substitution
import VersionTrail.Proofs.Bump.Changes
import VersionTrail.Proofs.Output.Spaces
import VersionTrail.Proofs.Calendar.Civil
import VersionTrail.Proofs.Calendar.ReadingBack
import VersionTrail.Proofs.History.Summary
import VersionTrail.Proofs.Text.Positions
import VersionTrail.Proofs.Template.Arithmetic
import VersionTrail.Proofs.Template.Positions
import VersionTrail.Proofs.Analysis.Arguments
