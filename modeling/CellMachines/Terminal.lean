/-!
# Terminal text

Text with the escape sequences that make a terminal show it in a colour or a
weight.
-/

namespace CellMachines.Terminal

/-- The text between the sequence for some attributes and the one that resets
them. -/
def styled (attributes text : String) : String :=
  "\x1b[" ++ attributes ++ "m" ++ text ++ "\x1b[0m"

def green (text : String) : String := styled "32" text

def red (text : String) : String := styled "31" text

def bold (text : String) : String := styled "1" text

def gray (text : String) : String := styled "90" text

/-- A label in bold green, moved to the right of a column of twelve characters.
-/
def statusLabel (label : String) : String :=
  styled "1;32"
    (String.ofList (List.replicate (12 - label.length) ' ') ++ label)

end CellMachines.Terminal
