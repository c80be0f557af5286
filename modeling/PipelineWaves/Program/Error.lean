import PipelineWaves.FilePath

/-!
# Generation errors

Why no program was generated or written.
-/

set_option autoImplicit false

namespace PipelineWaves

inductive GenerationError where
  | unknownFragment (name : String)
  | unfilledPlaceholders (name : String) (keys : List String)
  | notQuotable (context : String)
  | notWritten (path : FilePath) (reason : String)
deriving DecidableEq, Repr

namespace GenerationError

def message : GenerationError → String
  | unknownFragment name => s!"template '{name}': no such fragment"
  | unfilledPlaceholders name keys =>
      s!"template '{name}': unfilled placeholder(s): " ++ ", ".intercalate keys
  | notQuotable context => s!"cannot escape {context}: value contains a NUL character"
  | notWritten path reason => s!"failed to write {path.text}: {reason}"

end GenerationError

end PipelineWaves
