/-!
# Terminal styles

What a terminal can show. Colours are switched on by escape sequences around a
text; symbols are pictures or plain characters.
-/

set_option autoImplicit false

namespace PipelineWaves

structure Terminal where
  colours : Bool
  pictures : Bool
deriving DecidableEq, Repr

inductive Style where
  | bold
  | dim
  | red
  | green
  | yellow
  | cyan
deriving DecidableEq, Repr

inductive Symbol where
  | check
  | cross
  | spinner
  | skip
  | info
  | warning
  | rocket
deriving DecidableEq, Repr

namespace Style

def code : Style → String
  | bold => "1"
  | dim => "2"
  | red => "31"
  | green => "32"
  | yellow => "33"
  | cyan => "36"

end Style

namespace Symbol

def picture : Symbol → String
  | check => "✅ "
  | cross => "❌ "
  | spinner => "⏳ "
  | skip => "⏭️  "
  | info => "ℹ️  "
  | warning => "⚠️  "
  | rocket => "🚀 "

def plain : Symbol → String
  | check => "✓ "
  | cross => "✗ "
  | spinner => "~ "
  | skip => "- "
  | info => "i "
  | warning => "! "
  | rocket => "> "

end Symbol

namespace Terminal

/-- Pictures are shown where the name of the locale ends in its encoding, written out in full. -/
def ofLocale (colours : Bool) (locale : String) : Terminal :=
  ⟨colours, locale.toUpper.endsWith "UTF-8"⟩

def styled (terminal : Terminal) (style : Style) (text : String) : String :=
  if terminal.colours then "\x1b[" ++ style.code ++ "m" ++ text ++ "\x1b[0m" else text

def symbol (terminal : Terminal) (symbol : Symbol) : String :=
  if terminal.pictures then symbol.picture else symbol.plain

end Terminal

end PipelineWaves
