import Cordon.Lua.Lib.Base

/-!
# Package library

The host's searchers. Native libraries are never loaded.
-/

namespace Cordon.Lua.PackageFn

def config : Bytes := "/\n;\n?\n!\n-\n"

def path : Bytes :=
  Bytes.join ";" (["/usr/local/share/lua/5.4/?.lua", "/usr/local/share/lua/5.4/?/init.lua",
    "/usr/local/lib/lua/5.4/?.lua", "/usr/local/lib/lua/5.4/?/init.lua", "./?.lua",
    "./?/init.lua"].map Bytes.ofString)

def nativePath : Bytes :=
  Bytes.join ";" (["/usr/local/lib/lua/5.4/?.so", "/usr/local/lib/lua/5.4/loadall.so",
    "./?.so"].map Bytes.ofString)

def searchers : List PackageFn := [preloadSearcher, fileSearcher, nativeSearcher]

def run (f : PackageFn) (args : List Value) : Script (List Value) := do
  match f with
  | loadlib =>
    Script.ofHost (Host.fail (.script (.safety "package.loadlib is disabled in safe mode")))
  | searchpath =>
    let name ← Script.checkText args 1
    let path ← Script.checkText args 2
    let _ ← Script.optText args 3 "."
    let _ ← Script.optText args 4 "/"
    return [.nil, .str (BaseFn.noFiles (BaseFn.fileNames path name))]
  | preloadSearcher => BaseFn.preloadSearch (← Script.checkText args 1)
  | fileSearcher => BaseFn.fileSearch (← Script.checkText args 1)
  | nativeSearcher => return BaseFn.nativeSearch

end Cordon.Lua.PackageFn
