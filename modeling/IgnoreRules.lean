import IgnoreRules.Filter
import IgnoreRules.Log.Logging
import IgnoreRules.Proofs.Rule.Line
import IgnoreRules.Proofs.Rule.Platforms
import IgnoreRules.Proofs.Rule.Canonical
import IgnoreRules.Proofs.Path.Normal
import IgnoreRules.Proofs.Tree.Walk
import IgnoreRules.Proofs.Tree.Real
import IgnoreRules.Proofs.Cache.Steady
import IgnoreRules.Proofs.Cache.Uncached
import IgnoreRules.Proofs.Workspace.Relative
import IgnoreRules.Proofs.Cache.Heard
import IgnoreRules.Proofs.Cache.Spelling
import IgnoreRules.Proofs.Text.Case
import IgnoreRules.Proofs.Tree.Linkless
import IgnoreRules.Proofs.Cache.Hierarchy
import IgnoreRules.Proofs.Rule.Covering
import IgnoreRules.Proofs.Rule.Relocation
import IgnoreRules.Proofs.Cache.Calls
import IgnoreRules.Proofs.Cache.Growth
import IgnoreRules.Proofs.Cache.Transparency
import IgnoreRules.Proofs.Cache.Chronicle
import IgnoreRules.Proofs.Tree.Content
import IgnoreRules.Proofs.Cache.Refresh
import IgnoreRules.Proofs.IgnoreFile.Layout
import IgnoreRules.Proofs.Tree.Reached
import IgnoreRules.Proofs.Cache.Absent
import IgnoreRules.Proofs.Cache.Answered
import IgnoreRules.Proofs.Cache.Broken
import IgnoreRules.Proofs.Cache.Isolation
import IgnoreRules.Proofs.Rule.Meaning
import IgnoreRules.Proofs.Glob.Scan
import IgnoreRules.Proofs.Expression.Stretch
import IgnoreRules.Proofs.Glob.Taken
import IgnoreRules.Proofs.NameFilter.SingleName
import IgnoreRules.Proofs.NameFilter.Agreement
import IgnoreRules.Proofs.Filter.Survey
import IgnoreRules.Proofs.Json.Token
import IgnoreRules.Proofs.Json.RoundTrip
import IgnoreRules.Proofs.Settings.Stored
import IgnoreRules.Proofs.Rule.Grammar
import IgnoreRules.Proofs.Rule.Rebuilt
import IgnoreRules.Proofs.Rule.Apart
import IgnoreRules.Proofs.Rule.Names
import IgnoreRules.Proofs.Rule.Dropped
import IgnoreRules.Proofs.Rule.Floating
import IgnoreRules.Proofs.Cache.OwnFile
import IgnoreRules.Proofs.NameFilter.Directories
import IgnoreRules.Proofs.Tree.Joined
import IgnoreRules.Proofs.Tree.Completed
import IgnoreRules.Proofs.Filter.Chosen
import IgnoreRules.Proofs.Workspace.Entry
import IgnoreRules.Proofs.Workspace.Composition
import IgnoreRules.Proofs.Text.Encoded
import IgnoreRules.Proofs.Json.Reading
import IgnoreRules.Proofs.Json.Overflow
import IgnoreRules.Proofs.Json.CutShort
import IgnoreRules.Proofs.Settings.Loaded
import IgnoreRules.Proofs.Rule.Escapes
import IgnoreRules.Proofs.Log.Configured
