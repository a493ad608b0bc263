import CilRelink.Body.Agreement
import CilRelink.Bytes.Cursor
import CilRelink.Rewrite.Rewriter
import CilRelink.Proofs.Code.Offsets
import CilRelink.Proofs.Fallible
import CilRelink.Proofs.Code.Layout
import CilRelink.Proofs.Body.Insertion
import CilRelink.Proofs.Rewrite.Scan
import CilRelink.Proofs.Rewrite.Expansion
import CilRelink.Proofs.Rewrite.Coverage
import CilRelink.Proofs.Bytes.Numbers
import CilRelink.Proofs.Code.RoundTrip
import CilRelink.Proofs.Code.Canonical
import CilRelink.Proofs.Code.Stability
import CilRelink.Proofs.Code.Least
import CilRelink.Proofs.Scope.History
import CilRelink.Proofs.Body.Validity
import CilRelink.Proofs.Body.Section
import CilRelink.Proofs.Body.Edits
import CilRelink.Proofs.Body.Attachment
import CilRelink.Proofs.Body.RoundTrip
import CilRelink.Proofs.Body.Stability
import CilRelink.Proofs.Body.Emission
import CilRelink.Proofs.Rewrite.Binary
import CilRelink.Proofs.Body.Decoded
import CilRelink.Proofs.Body.Requests
import CilRelink.Proofs.Rewrite.Catches
import CilRelink.Proofs.Rewrite.Untouched
import CilRelink.Proofs.Rewrite.Rejection
import CilRelink.Proofs.Rule.Stock
import CilRelink.Proofs.Rule.Preference
import CilRelink.Proofs.Rewrite.Again
import CilRelink.Proofs.Scope.Uses
import CilRelink.Proofs.Reference.Identity
import CilRelink.Proofs.Host.Binding
import CilRelink.Proofs.Facade.Dispatch
import CilRelink.Proofs.Host.Ancestry
import CilRelink.Proofs.Rule.Breakage
import CilRelink.Proofs.Rule.LiveMembers
import CilRelink.Proofs.Rewrite.Site
import CilRelink.Proofs.Rule.Completion
import CilRelink.Proofs.Rule.TypeMap
import CilRelink.Proofs.Rule.Inheritance
import CilRelink.Proofs.Rule.StackEffect
import CilRelink.Proofs.Rewrite.Prefixes
import CilRelink.Proofs.Reference.Placeholders
import CilRelink.Proofs.Reference.Resemblance
import CilRelink.Proofs.Reference.Signature
import CilRelink.Proofs.Reference.Occurrence
import CilRelink.Proofs.Host.Assembly
import CilRelink.Proofs.Code.Constants
import CilRelink.Proofs.Body.Chain
import CilRelink.Proofs.Scope.Tables
import CilRelink.Proofs.Code.Length
import CilRelink.Proofs.Body.Restoration
import CilRelink.Proofs.Body.Filters
import CilRelink.Proofs.Facade.Transparency
import CilRelink.Proofs.Facade.Construction
import CilRelink.Proofs.Watched.Basic
import CilRelink.Proofs.Watched.Decode
import CilRelink.Proofs.Watched.Encode
import CilRelink.Proofs.Host.SharedName
import CilRelink.Proofs.Reference.DefinitionName
import CilRelink.Proofs.Host.Lookup
import CilRelink.Proofs.Code.Pieces
import CilRelink.Proofs.Rule.Rewritable
import CilRelink.Proofs.Rewrite.Foreign
import CilRelink.Proofs.Bytes.Cursor
import CilRelink.Proofs.Code.Misses
import CilRelink.Proofs.Watched.Trap
import CilRelink.Proofs.Watched.Layout
import CilRelink.Proofs.Watched.Bounds
