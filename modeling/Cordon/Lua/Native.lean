import Cordon.Failure.Basic
import Cordon.Lua.Ast
import Cordon.Lua.Value
import Cordon.Sandbox.Handle

/-!
# Native functions

The functions that are not written in the script language, by library, and those that the host and
the sandbox hand in together with the values they hold.
-/

namespace Cordon.Lua

inductive BaseFn where
  | assert | collectgarbage | dofile | error | getmetatable | ipairs | load | loadfile | next | pairs
  | pcall | print | rawequal | rawget | rawlen | rawset | require | select | setmetatable | tonumber
  | tostring | type | warn | xpcall
  deriving DecidableEq

inductive CoroutineFn where
  | close | create | isyieldable | resume | running | status | wrap | yield
  deriving DecidableEq

inductive StringFn where
  | byte | char | dump | find | format | gmatch | gsub | len | lower | match | pack | packsize | rep
  | reverse | sub | unpack | upper
  deriving DecidableEq

inductive Utf8Fn where
  | char | codepoint | codes | len | offset
  deriving DecidableEq

inductive TableFn where
  | concat | insert | move | pack | remove | sort | unpack
  deriving DecidableEq

inductive MathFn where
  | abs | acos | asin | atan | ceil | cos | deg | exp | floor | fmod | log | max | min | modf | rad
  | random | randomseed | sin | sqrt | tan | tointeger | type | ult
  deriving DecidableEq

inductive OsFn where
  | clock | date | difftime | execute | exit | getenv | remove | rename | setlocale | time | tmpname
  deriving DecidableEq

inductive IoFn where
  | close | flush | input | lines | output | popen | open | read | tmpfile | type | write
  deriving DecidableEq

inductive PackageFn where
  | loadlib | searchpath | preloadSearcher | fileSearcher | nativeSearcher
  deriving DecidableEq

/-- Functions a host puts in without code of its own. -/
inductive StubFn where
  | constant (values : List Value)
  | arguments
  | count
  /-- Returns 1, 2, 3 and so on; the variable holds the last number. -/
  | counter (cell : Nat)
  | failing (error : ScriptError)
  | raising (value : Value)
  /-- Calls this function with these arguments and gives way to it. -/
  | applying (fn : Value) (args : List Value)

/-- Functions of the sandbox, each with what it holds. -/
inductive GateFn where
  /-- Prints into the captured output, by way of a conversion function. -/
  | print (tostring : Value) (output : Nat) (echo : Bool)
  /-- Compiles text by way of the host's function, for this environment by default. -/
  | load (hostLoad : Value) (globals : Nat)
  /-- Whether an error must pass protected calls. -/
  | isFatal
  /-- Finds a module, or the function that is to make it. -/
  | resolve (modules : ModuleSystem)
  /-- Records what a module's function gave. -/
  | finish (modules : ModuleSystem)
  | adminRequire (sandbox : Sandbox)
  | adminAllow (sandbox : Sandbox)
  | adminRemove (sandbox : Sandbox)
  | adminPermitted (sandbox : Sandbox)

inductive Native where
  | base (f : BaseFn)
  | coroutine (f : CoroutineFn)
  | string (f : StringFn)
  | utf8 (f : Utf8Fn)
  | table (f : TableFn)
  | math (f : MathFn)
  | os (f : OsFn)
  | io (f : IoFn)
  | package (f : PackageFn)
  /-- Arithmetic on numeric strings. -/
  | stringArith (op : ArithOp)
  /-- The sign of a numeric string turned. -/
  | stringNeg
  | ipairsStep
  /-- The step of a search for all matches; the variable holds where to go on, and the last end. -/
  | gmatchStep (subject pattern : Bytes) (cell : Nat)
  | codesStep (lax : Bool)
  | wrapped (thread : Nat)
  | faultText
  | stub (f : StubFn)
  | gate (f : GateFn)

/-- What a function value stands for. -/
inductive Callable where
  /-- A function of the text `chunk` with the variables it sees. -/
  | closure (chunk : Bytes) (f : Func) (cells : List Nat)
  | native (f : Native)

instance : Inhabited Callable := ⟨.native (.stub .arguments)⟩

end Cordon.Lua
