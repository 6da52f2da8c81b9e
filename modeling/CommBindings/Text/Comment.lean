import CommBindings.Text.Wrap

set_option autoImplicit false

/-! # Comments

Prose is wrapped and each of its lines put behind a leader such as `// `.
-/

namespace CommBindings.Text

/-- The width to which prose is wrapped, the leader not counted. -/
def commentWidth : Nat := 70

/-- A line with its leader, trimmed at the end and closed by a line feed. -/
def commentLine (leader line : String) : String :=
  String.ofList (trimEnd (leader.toList ++ line.toList)) ++ "\n"

/-- Prose as comment lines behind a leader. -/
def comment (leader text : String) : String :=
  String.join ((wrap commentWidth text).map (commentLine leader))

end CommBindings.Text
