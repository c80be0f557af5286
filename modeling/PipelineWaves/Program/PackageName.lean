/-!
# Package names

The name of the package made from a pipeline: the ASCII letters and digits of
the pipeline's name in lower case, with one hyphen for everything in between.
-/

set_option autoImplicit false

namespace PipelineWaves.PackageName

/-- Lower-case letters and digits, runs of all else joined to one hyphen; the latest first. -/
def hyphenated (kept : List Char) : List Char → List Char
  | [] => kept
  | character :: rest =>
      if character.isAlphanum then hyphenated (character.toLower :: kept) rest
      else if kept.head? = some '-' then hyphenated kept rest
      else hyphenated ('-' :: kept) rest

def isHyphen (character : Char) : Bool := character = '-'

def trimmed (name : List Char) : List Char :=
  (((hyphenated [] name).dropWhile isHyphen).reverse).dropWhile isHyphen

def of (pipelineName : String) : String :=
  let name := trimmed pipelineName.toList
  match name with
  | [] => "pipeline"
  | first :: _ =>
      if first.isDigit then "pipeline-" ++ String.ofList name else String.ofList name

end PipelineWaves.PackageName
