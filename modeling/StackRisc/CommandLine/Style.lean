/-!
# StackRisc.CommandLine.Style

Styles of text on a terminal.  A text in a style stands between two control
sequences: one that begins the style, and one that resets it.
-/

namespace StackRisc.CommandLine

/-- A text in a style of the terminal, which is reset behind it. -/
def styled (code : Nat) (text : String) : String :=
  "\x1b[" ++ toString code ++ "m" ++ text ++ "\x1b[0m"

def styleHint (text : String) : String := styled 2 text

def stylePrompt (text : String) : String := styled 1 text

def styleName (text : String) : String := styled 1 text

def styleRefused (text : String) : String := styled 33 text

end StackRisc.CommandLine
