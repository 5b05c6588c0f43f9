import NativeTyping.Analysis
import NativeTyping.Captures
import NativeTyping.Config.Basic
import NativeTyping.Config.Reading
import NativeTyping.Environment.Basic
import NativeTyping.Environment.Binding
import NativeTyping.Environment.ClassInfo
import NativeTyping.Environment.Resolution
import NativeTyping.Error
import NativeTyping.Export.Document
import NativeTyping.Export.Environment
import NativeTyping.Export.Program
import NativeTyping.Inference.Call
import NativeTyping.Inference.Context
import NativeTyping.Inference.Expr
import NativeTyping.Inference.Operator
import NativeTyping.Inference.Unpack
import NativeTyping.Library.Builtins
import NativeTyping.Library.Facilities
import NativeTyping.Library.Modules
import NativeTyping.Library.ReturnRule
import NativeTyping.Library.StructFormat
import NativeTyping.Mutation.Event
import NativeTyping.Mutation.Rule
import NativeTyping.Program.Expr
import NativeTyping.Program.Stmt
import NativeTyping.Proofs.Agreement
import NativeTyping.Proofs.CaptureSets
import NativeTyping.Proofs.Covering
import NativeTyping.Proofs.Dotted
import NativeTyping.Proofs.MergeOrder
import NativeTyping.Proofs.Nesting
import NativeTyping.Proofs.Occurrence
import NativeTyping.Proofs.Owner
import NativeTyping.Proofs.Promotion
import NativeTyping.Proofs.ScopeIsolation
import NativeTyping.Proofs.Simulation
import NativeTyping.Proofs.Table
import NativeTyping.Proofs.Widening
import NativeTyping.Surface.Lowering
import NativeTyping.Surface.Program
import NativeTyping.Surface.Tree
import NativeTyping.Table
import NativeTyping.Text.Alphanumeric
import NativeTyping.Text.Dotted
import NativeTyping.Text.Trim
import NativeTyping.Toml.Document
import NativeTyping.Toml.Line
import NativeTyping.Toml.Moment
import NativeTyping.Toml.Number
import NativeTyping.Toml.Tables
import NativeTyping.Toml.Text
import NativeTyping.Ty.Basic
import NativeTyping.Ty.Hint
import NativeTyping.Ty.Render
import NativeTyping.Ty.Storage
import NativeTyping.Ty.Widen
import NativeTyping.Visit.Assignment
import NativeTyping.Visit.Definition
import NativeTyping.Visit.Statement
import NativeTyping.Proofs.Fitness.Type
import NativeTyping.Proofs.Fitness.Reading
import NativeTyping.Proofs.Fitness.Visit
import NativeTyping.Proofs.Fitness.Analysis
import NativeTyping.Proofs.Fitness.Stored
import NativeTyping.Proofs.Sweep
import NativeTyping.Proofs.Steps
import NativeTyping.Proofs.Registration
import NativeTyping.Proofs.Settling
import NativeTyping.Proofs.LocalVariable
import NativeTyping.Proofs.ReturnedVariable
import NativeTyping.Proofs.DeclaredResult
import NativeTyping.Proofs.BoundNames
import NativeTyping.Proofs.BareCall
import NativeTyping.Proofs.OuterDeclaration
import NativeTyping.Proofs.Fitness.ArrayFree
import NativeTyping.Proofs.Walks
import NativeTyping.Proofs.Likeness.Body
import NativeTyping.Proofs.Likeness.Program
import NativeTyping.Proofs.IgnoredHints
import NativeTyping.Proofs.Straightening
import NativeTyping.Proofs.Hint.Splitting
import NativeTyping.Proofs.Hint.Unfolding
import NativeTyping.Proofs.Hint.Application
import NativeTyping.Proofs.Hint.RoundTrip
import NativeTyping.Proofs.Hint.Callable
import NativeTyping.Proofs.Hint.Optional
import NativeTyping.Proofs.FieldWrite
import NativeTyping.Proofs.SuperCall
import NativeTyping.Proofs.MethodDispatch
import NativeTyping.Proofs.LoopItems
import NativeTyping.Proofs.FreeNames
import NativeTyping.Proofs.Allocator
import NativeTyping.Proofs.StructFormat
import NativeTyping.Proofs.ConstructorArgs
import NativeTyping.Proofs.VariableWrite
import NativeTyping.Proofs.StorageForm
import NativeTyping.Proofs.TupleSubscript
import NativeTyping.Proofs.MutationRules
import NativeTyping.Proofs.ClosureNames
import NativeTyping.Proofs.TargetLeaves
