import Cordon.Lua.Script
import Cordon.Sandbox.Cache

/-!
# Finding modules

A sandbox looks for a module first among those loaded, then among the functions its programs have
put under `package.preload`, and last in its allow-list. What is found by allow-list is there at
once; a preloaded function still has to be called.
-/

namespace Cordon

open Lua

/-- A way to a module's value. -/
inductive Loader where
  /-- A function to call with the module's name and something extra. -/
  | pending (fn extra : Value)
  | resolved (value : Value)

/-- What one searcher has to say about a name. -/
inductive Search where
  | found (loader : Loader)
  | notFound (reason : String)

/-- What all searchers together have to say. -/
inductive Resolution where
  | ready (value : Value)
  | pending (fn extra : Value)

namespace ModuleSystem

/-- Looks among the preloaded functions. A module system without them is broken, and so is an entry
that is no function. -/
def searchPreload (m : ModuleSystem) (name : Bytes) : Host Search := do
  match ← Host.field (.table m.package) "preload" with
  | .table preload =>
    match ← Host.ofScript (Script.index (.table preload) (.str name)) with
    | .nil => return .notFound ("\n\tno field package.preload['" ++ name.lossy ++ "']")
    | .fn id => return .found (.pending (.fn id) .nil)
    | v => Host.fail (.searcherContract ("package.preload['" ++ name.lossy ++ "'] is a " ++
        v.hostTypeName ++ ", not a loader function"))
  | v => Host.fail (.searcherContract ("package.preload must be a table, got " ++ v.hostTypeName))

/-- Looks in an allow-list. A name that is not text is never allowed. -/
def searchList (l : AllowList Value) (name : Bytes) : Search :=
  match name.text?.bind l.get? with
  | some v => .found (.resolved v)
  | none => .notFound ("\n\tno module '" ++ name.lossy ++ "' in list of allowed modules")

def searchAllowed (m : ModuleSystem) (name : Bytes) : Host Search :=
  Host.read fun s => searchList (s.permit m.permit) name

def find (m : ModuleSystem) (name : Bytes) : Host Loader := do
  match ← m.searchPreload name with
  | .found loader => return loader
  | .notFound first =>
    match ← m.searchAllowed name with
    | .found loader => return loader
    | .notFound second => Host.fail (.moduleNotFound name.lossy (first ++ second))

/-- Records what loading a module gave, true standing for nothing. -/
def finish (m : ModuleSystem) (name : Bytes) (value : Value) : Host Value := do
  let value := if value.isNil then .bool true else value
  Host.update fun s =>
    (s.record m.loaded (.str name) value).report (.resolved name.lossy)
  return value

/-- The module, or the function that is to make it. -/
def resolve (m : ModuleSystem) (name : Bytes) : Host Resolution := do
  match ← Host.read fun s => s.cached? m.loaded (.str name) with
  | some v =>
    Host.update fun s => s.report (.cacheHit name.lossy)
    return .ready v
  | none =>
    match ← m.find name with
    | .resolved v => return .ready (← m.finish name v)
    | .pending fn extra => return .pending fn extra

/-- The module; a preloaded function is called here. -/
def require (m : ModuleSystem) (name : String) : Host Value := do
  match ← m.resolve name with
  | .ready v => return v
  | .pending fn extra =>
    let vs ← Host.call fn [.str name, extra]
    m.finish name (.first vs)

end ModuleSystem

end Cordon
