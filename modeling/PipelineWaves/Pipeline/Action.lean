import PipelineWaves.Dictionary

/-!
# Actions

What a step does. Every kind of action has a fixed set of fields; the meaning of
the fields is given by the recipe that carries the action out.
-/

set_option autoImplicit false

namespace PipelineWaves

inductive OptimizeMode where
  | debug
  | releaseSafe
  | releaseFast
  | releaseSmall
deriving DecidableEq, Repr

namespace OptimizeMode

def text : OptimizeMode → String
  | debug => "Debug"
  | releaseSafe => "ReleaseSafe"
  | releaseFast => "ReleaseFast"
  | releaseSmall => "ReleaseSmall"

def all : List OptimizeMode := [debug, releaseSafe, releaseFast, releaseSmall]

end OptimizeMode

inductive CacheOperation where
  | restore
  | save
deriving DecidableEq, Repr

namespace CacheOperation

def text : CacheOperation → String
  | restore => "restore"
  | save => "save"

def all : List CacheOperation := [restore, save]

end CacheOperation

inductive Action where
  | shell (command : String) (workingDirectory : Option String)
  | compile (sourceFile outputName : String) (optimize : OptimizeMode)
  | testRun (testFile : String) (filter : Option String)
  | checkout (repository branch path : String)
  | artifact (sourcePath destination : String)
  | cache (operation : CacheOperation) (key paths : String) (directory : Option String)
  | custom (typeName : String) (parameters : Dictionary String)
deriving DecidableEq, Repr

/-- The kinds of actions, as definitions name them. -/
inductive ActionKind where
  | shell
  | compile
  | testRun
  | checkout
  | artifact
  | cache
  | custom
deriving DecidableEq, Repr

namespace ActionKind

def text : ActionKind → String
  | shell => "shell"
  | compile => "compile"
  | testRun => "test_run"
  | checkout => "checkout"
  | artifact => "artifact"
  | cache => "cache"
  | custom => "custom"

def all : List ActionKind := [shell, compile, testRun, checkout, artifact, cache, custom]

end ActionKind

namespace Action

def kind : Action → ActionKind
  | shell .. => .shell
  | compile .. => .compile
  | testRun .. => .testRun
  | checkout .. => .checkout
  | artifact .. => .artifact
  | cache .. => .cache
  | custom .. => .custom

end Action

end PipelineWaves
