set_option autoImplicit false

/-! # Paths

Absolute paths as lists of names. A name `..` leads to the parent of what stands before it when
the path is walked; empty names and the name `.` are left out when a path is read. Only of two
slashes at its very start the path keeps the empty name between them, which leads nowhere else.
-/

namespace CommBindings

/-- An absolute path: the names from the root on. -/
structure Path where
  names : List String
  deriving Repr, DecidableEq, Inhabited

namespace Path

/-- The path of the root. -/
def root : Path := ⟨[]⟩

/-- The names of the root with two slashes. -/
def doubleRoot : List String := [""]

/-- The text of the path. -/
def text (p : Path) : String :=
  if p.names = doubleRoot then "//" else "/" ++ "/".intercalate p.names

/-- Whether the path holds the character NUL, which no path may. -/
def holdsNul (p : Path) : Bool := p.names.any fun name => name.toList.contains '\x00'

/-- The longest path, in bytes with one more at its end. -/
def maxLength : Nat := 4096

/-- Whether the path is longer than a path may be. -/
def isTooLong (p : Path) : Bool := p.text.utf8ByteSize ≥ maxLength

/-- The names in a text that slashes separate. -/
def namesOf (text : String) : List String :=
  (text.splitOn "/").filter fun name => name ≠ "" && name ≠ "."

/-- The names that every path with the beginning of a text has in front. A text without a slash at
its start is read from the current directory on. -/
def startOf (base : Path) (text : String) : List String :=
  match text.toList with
  | '/' :: '/' :: '/' :: _ => []
  | '/' :: '/' :: _ => doubleRoot
  | '/' :: _ => []
  | _ => base.names

/-- The path that a text means where `base` is the current directory. -/
def ofText (base : Path) (text : String) : Path := ⟨startOf base text ++ namesOf text⟩

/-- The path of an entry of the directory. -/
def child (p : Path) (name : String) : Path := ⟨p.names ++ [name]⟩

/-- The directory that the path lies in; that of the root is the root. -/
def parent (p : Path) : Path := if p.names = doubleRoot then p else ⟨p.names.dropLast⟩

/-- The last name, which the root does not have. -/
def name (p : Path) : String := p.names.getLast?.getD ""

/-- The path with another last name. -/
def withName (p : Path) (name : String) : Path := ⟨p.names.dropLast ++ [name]⟩

/-- The names without `..`, each of which removes the name before it, and without empty ones. -/
def flatten (names : List String) : List String :=
  names.foldl
    (fun kept name =>
      if name = "" then kept else if name = ".." then kept.dropLast else kept ++ [name]) []

/-- The path without `..`, where every name before one is a directory. -/
def flattened (p : Path) : Path := ⟨flatten p.names⟩

/-- The last point of a name and what follows it, unless the point is first or last. -/
def suffixOf (name : List Char) : List Char :=
  let behind := (name.reverse.takeWhile (· ≠ '.')).reverse
  let front := name.length - behind.length
  if behind.isEmpty || front ≤ 1 then [] else '.' :: behind

/-- The suffix of the last name, with its point. -/
def suffix (p : Path) : String := String.ofList (suffixOf p.name.toList)

/-- Every path but the root is longer than that of its directory. -/
theorem length_parent_lt {p : Path} (isLower : p.parent ≠ p) :
    p.parent.names.length < p.names.length := by
  obtain ⟨names⟩ := p
  unfold parent at isLower ⊢
  split at isLower
  · exact absurd rfl isLower
  · rename_i isSingle
    rw [if_neg isSingle]
    cases names with
    | nil => exact absurd rfl isLower
    | cons name rest => simp

end Path

end CommBindings
