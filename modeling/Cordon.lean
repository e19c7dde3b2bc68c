import Cordon.Text.Bytes
import Cordon.Text.Lossy
import Cordon.Text.Charset
import Cordon.Text.Quoted
import Cordon.Failure.Classify
import Cordon.AllowList
import Cordon.Output
import Cordon.Memory
import Cordon.Config.Basic
import Cordon.Event
import Cordon.Lua.Number.Double
import Cordon.Lua.Number.Numeral
import Cordon.Lua.Number.Decimal
import Cordon.Lua.Ast
import Cordon.Lua.Token
import Cordon.Lua.Parse
import Cordon.Lua.Value
import Cordon.Lua.Table
import Cordon.Lua.Native
import Cordon.Lua.Store
import Cordon.Lua.Arith
import Cordon.Lua.Action
import Cordon.Lua.Access
import Cordon.Lua.Eval
import Cordon.Lua.Script
import Cordon.Lua.Compile
import Cordon.Lua.Lib.Base
import Cordon.Lua.Pattern
import Cordon.Lua.Lib.Format
import Cordon.Lua.Lib.String
import Cordon.Lua.Lib.Table
import Cordon.Lua.Lib.Math
import Cordon.Lua.Lib.Utf8
import Cordon.Lua.Lib.Coroutine
import Cordon.Lua.Lib.Calendar
import Cordon.Lua.Lib.Os
import Cordon.Lua.Lib.Io
import Cordon.Lua.Lib.Package
import Cordon.Sandbox.Cache
import Cordon.Sandbox.Modules
import Cordon.Sandbox.Admission
import Cordon.Sandbox.Gate
import Cordon.Lua.Invoke
import Cordon.Lua.Machine
import Cordon.Sandbox.Protect
import Cordon.Sandbox.Require
import Cordon.Sandbox.Environment
import Cordon.Sandbox.Open
import Cordon.Sandbox.Execute
import Cordon.Lua.Interpreter
import Cordon.Proofs.ByteOrder
import Cordon.Proofs.AllowList
import Cordon.Proofs.Failure.Classification
import Cordon.Proofs.Failure.Flags
import Cordon.Proofs.Fresh
import Cordon.Proofs.Lua.KeyOrder
import Cordon.Proofs.Lua.Lookup
import Cordon.Proofs.Lua.Running
import Cordon.Proofs.Lua.Leads
import Cordon.Proofs.Lua.Follows
import Cordon.Proofs.Lua.Unaware
import Cordon.Proofs.Lua.Closed
import Cordon.Proofs.Modules.Search
import Cordon.Proofs.Modules.Require
import Cordon.Proofs.Modules.Parts
import Cordon.Proofs.Modules.History
import Cordon.Proofs.Modules.Opening
import Cordon.Proofs.Modules.Sessions
import Cordon.Proofs.Modules.Interleaving
import Cordon.Proofs.Sandbox.Sparing
import Cordon.Proofs.Sandbox.Adoption
import Cordon.Proofs.Sandbox.RestrictedOs
import Cordon.Proofs.Sandbox.Fatal
import Cordon.Proofs.Sandbox.Protected
import Cordon.Proofs.Sandbox.Nesting
import Cordon.Proofs.Sandbox.Unwinding
import Cordon.Proofs.Sandbox.Swallowing
import Cordon.Proofs.Confinement.Ward
import Cordon.Proofs.Confinement.Confined
import Cordon.Proofs.Confinement.Actions
import Cordon.Proofs.Confinement.Evaluation
import Cordon.Proofs.Confinement.Alike
import Cordon.Proofs.Confinement.Keeping
import Cordon.Proofs.Confinement.Base
import Cordon.Proofs.Confinement.Tables
import Cordon.Proofs.Confinement.Scalars
import Cordon.Proofs.Confinement.Strings
import Cordon.Proofs.Confinement.Gates
import Cordon.Proofs.Confinement.Programs
import Cordon.Proofs.Confinement.Steps
import Cordon.Proofs.Confinement.Fresh
import Cordon.Proofs.Confinement.Opening
import Cordon.Proofs.Confinement.Globals
import Cordon.Proofs.Sandbox.Entering
import Cordon.Proofs.Sandbox.Judging
import Cordon.Proofs.Sandbox.Sealing
import Cordon.Proofs.Sandbox.ProtectedCalls
import Cordon.Proofs.Lua.Maintaining
import Cordon.Proofs.Lua.Writes
import Cordon.Proofs.Lua.Answers
import Cordon.Proofs.Sandbox.Stages
import Cordon.Proofs.Sandbox.Registration
import Cordon.Proofs.Sandbox.Building
import Cordon.Proofs.Sandbox.Furnishing
import Cordon.Proofs.Sandbox.Opened
import Cordon.Proofs.Sandbox.Population
import Cordon.Proofs.Sandbox.HostObjects
import Cordon.Proofs.Sandbox.Delegating
import Cordon.Proofs.Sandbox.Handling
import Cordon.Proofs.Output
import Cordon.Proofs.Capturing
import Cordon.Proofs.Permitting
import Cordon.Proofs.Lua.Laws
import Cordon.Proofs.Lua.Libraries
import Cordon.Proofs.Lua.Quiet
import Cordon.Proofs.Lua.Calm
import Cordon.Proofs.Sandbox.LawfulOpening
import Cordon.Proofs.Sandbox.Printing
import Cordon.Proofs.Sandbox.Transcripts
import Cordon.Proofs.Sandbox.Neighbours
import Cordon.Proofs.Sandbox.Operations
import Cordon.Proofs.Sandbox.Independence
import Cordon.Proofs.Modules.Deciding
import Cordon.Proofs.Sandbox.Administration
import Cordon.Proofs.Modules.Failing
import Cordon.Proofs.Modules.Agreeing
import Cordon.Proofs.Modules.Asking
import Cordon.Proofs.Modules.Dependencies
import Cordon.Proofs.Sandbox.PrintCalls
import Cordon.Proofs.Modules.Renewing
import Cordon.Proofs.Sandbox.Compiling
import Cordon.Proofs.Sandbox.AdminCalls
import Cordon.Proofs.Sandbox.FailedRuns
import Cordon.Proofs.Lua.RawEquality
import Cordon.Proofs.Lua.RawTables
import Cordon.Proofs.Modules.Recording
