import NullGuard.Cli.Args
import NullGuard.Cli.LogFormat
import NullGuard.Cli.Report
import NullGuard.Decimal.Binary
import NullGuard.Decimal.Layout
import NullGuard.Decimal.Reading
import NullGuard.Decimal.Shortest
import NullGuard.Document.Basic
import NullGuard.Document.Data
import NullGuard.Document.Declare
import NullGuard.Document.Error
import NullGuard.Document.Lower
import NullGuard.Document.Shape
import NullGuard.Eval.Builtin
import NullGuard.Eval.Error
import NullGuard.Eval.Evaluate
import NullGuard.Eval.Operator
import NullGuard.Eval.Trace
import NullGuard.Eval.Value
import NullGuard.Expr.Basic
import NullGuard.Expr.Build
import NullGuard.Expr.Children
import NullGuard.Expr.Equality
import NullGuard.Expr.Text
import NullGuard.Guard.Cache
import NullGuard.Guard.Fallback
import NullGuard.Guard.FreshNames
import NullGuard.Guard.Insert
import NullGuard.Guard.Protect
import NullGuard.Guard.Safety
import NullGuard.Json.Basic
import NullGuard.Json.Number
import NullGuard.Json.Reader
import NullGuard.Json.Text
import NullGuard.Json.Token
import NullGuard.Main
import NullGuard.Text.Alphanumeric
import NullGuard.Text.Blank
import NullGuard.Text.Quoted
import NullGuard.Text.Ranges
import NullGuard.Text.Unprintable
import NullGuard.Text.Uppercase
import NullGuard.Ty.Basic
import NullGuard.Ty.Catalogue
import NullGuard.Ty.Collection
import NullGuard.Ty.Definition
import NullGuard.Ty.Equality
import NullGuard.Ty.Hierarchy
import NullGuard.Ty.Nullability
import NullGuard.Ty.Numbering
import NullGuard.Ty.Substitution
import NullGuard.Ty.Text
import NullGuard.TypeName.Resolve
import NullGuard.TypeName.Steps
import NullGuard.TypeName.Token
import NullGuard.Workspace
import NullGuard.Proofs.Document.Constant
import NullGuard.Proofs.Document.DeclarationOrder
import NullGuard.Proofs.Document.Scope
import NullGuard.Proofs.Eval.Arithmetic
import NullGuard.Proofs.Eval.Distinct
import NullGuard.Proofs.Eval.FreeNames
import NullGuard.Proofs.Eval.Predicate
import NullGuard.Proofs.Eval.Termination
import NullGuard.Proofs.Expr.Replacement
import NullGuard.Proofs.Expr.Spelling
import NullGuard.Proofs.Guard.Agreement
import NullGuard.Proofs.Guard.CallForms
import NullGuard.Proofs.Guard.EmptyResult
import NullGuard.Proofs.Guard.Failure
import NullGuard.Proofs.Guard.FixedPoint
import NullGuard.Proofs.Guard.Growth
import NullGuard.Proofs.Guard.GuardedText
import NullGuard.Proofs.Guard.Moments
import NullGuard.Proofs.Guard.NameSequence
import NullGuard.Proofs.Guard.NullSafety
import NullGuard.Proofs.Guard.NullableReceivers
import NullGuard.Proofs.Guard.SafeValue
import NullGuard.Proofs.Guard.SharedCache
import NullGuard.Proofs.Guard.StandIn
import NullGuard.Proofs.Guard.Typing
import NullGuard.Proofs.Ty.Assignability
import NullGuard.Proofs.Ty.Composition
import NullGuard.Proofs.Ty.InheritedField
import NullGuard.Proofs.Ty.Numbering
import NullGuard.Proofs.Ty.Parts
import NullGuard.Proofs.Ty.Substitution
import NullGuard.Proofs.TypeName.Prefix
