set_option autoImplicit false

/-! # Braces

Generated code is full of braces; here they have names.
-/

namespace CommBindings.Text

/-- An opening brace. -/
def openBrace : String := "\x7b"

/-- A closing brace. -/
def closeBrace : String := "\x7d"

/-- The end of a line that opens a block. -/
def blockStart : String := " " ++ openBrace ++ "\n"

/-- The text between braces and spaces. -/
def braced (text : String) : String := openBrace ++ " " ++ text ++ " " ++ closeBrace

end CommBindings.Text
