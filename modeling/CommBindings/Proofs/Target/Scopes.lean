import Mathlib

set_option autoImplicit false

/-! # Scopes at import time

When a Python module is imported, its statements are run one after another. Each of them looks up
some names and then binds one; a class does the same line by line in a scope of its own, on top of
that of the module. A lookup finds the innermost binding, which need not be the one that was meant
(`Use.IsIntended`). Names are told apart as they are written, but for those that are private to a
class (`inClass`). For statements that do not mean each other, all lookups find what was meant
exactly if they do so in the scope around the statements and no statement before them binds the same
name (`intended_iff`).
-/

namespace CommBindings.Python

/-- What a name is bound to: what the language has under it, something from the head of the file,
the enumeration of the requests' methods, the class for the request or the reply of a method, any
other declaration, or an attribute of the class that is being defined. -/
inductive Origin where
  | builtin
  | header
  | tags
  | request (method : String)
  | reply (method : String)
  | other
  | attribute
  deriving Repr, DecidableEq

/-- A name that is looked up, and what it is meant to be bound to. -/
structure Use where
  name : String
  origin : Origin
  deriving Repr, DecidableEq

/-- Whether a name is private to a class: it begins with two low lines and does not end with two. -/
def isPrivate (name : String) : Bool :=
  List.isPrefixOf ['_', '_'] name.toList && !List.isSuffixOf ['_', '_'] name.toList

/-- The name of a class without the low lines at its start. -/
def ownerName (className : String) : String :=
  String.ofList (className.toList.dropWhile (· = '_'))

/-- The name under which a name is looked up and bound in the body of a class: a private one is put
behind that of the class. -/
def inClass (className name : String) : String :=
  if isPrivate name = true ∧ ownerName className ≠ "" then "_" ++ ownerName className ++ name
  else name

/-- A line in the body of a class: it looks up names and then binds an attribute. -/
structure Line where
  uses : List Use
  name : String

/-- A statement of a module: it looks up names, a class then runs through its body, and at the end
one name is bound. -/
structure Statement where
  uses : List Use
  body : List Line
  name : String
  origin : Origin

/-- The bindings at some point, the innermost first. -/
abbrev Scope := List (String × Origin)

/-- What a name means: its innermost binding, or else what the language has under it. -/
def lookUp (scope : Scope) (name : String) : Origin := (scope.lookup name).getD .builtin

/-- The name means in the scope what it is meant to. -/
def Use.IsIntended (use : Use) (scope : Scope) : Prop := lookUp scope use.name = use.origin

instance (use : Use) (scope : Scope) : Decidable (use.IsIntended scope) :=
  inferInstanceAs (Decidable (lookUp scope use.name = use.origin))

/-- A lookup in its scope. -/
structure Evaluation where
  scope : Scope
  use : Use

/-- The lookup finds what was meant. -/
def Evaluation.IsIntended (evaluation : Evaluation) : Prop :=
  evaluation.use.IsIntended evaluation.scope

instance (evaluation : Evaluation) : Decidable evaluation.IsIntended :=
  inferInstanceAs (Decidable (evaluation.use.IsIntended evaluation.scope))

/-- The lookups in the body of a class. -/
def bodyEvaluations (scope : Scope) : List Line → List Evaluation
  | [] => []
  | line :: rest =>
    line.uses.map (Evaluation.mk scope) ++ bodyEvaluations ((line.name, .attribute) :: scope) rest

/-- The lookups of a statement. -/
def Statement.evaluations (scope : Scope) (statement : Statement) : List Evaluation :=
  statement.uses.map (Evaluation.mk scope) ++ bodyEvaluations scope statement.body

/-- The lookups of statements that are run one after another. -/
def evaluations (scope : Scope) : List Statement → List Evaluation
  | [] => []
  | statement :: rest =>
    statement.evaluations scope ++ evaluations ((statement.name, statement.origin) :: scope) rest

/-- All lookups of the statements find what was meant. -/
def Intended (scope : Scope) (statements : List Statement) : Prop :=
  ∀ evaluation ∈ evaluations scope statements, evaluation.IsIntended

instance (scope : Scope) (statements : List Statement) : Decidable (Intended scope statements) :=
  inferInstanceAs (Decidable (∀ evaluation ∈ evaluations scope statements, evaluation.IsIntended))

/-- The scope after the statements. -/
def extend (scope : Scope) : List Statement → Scope
  | [] => scope
  | statement :: rest => extend ((statement.name, statement.origin) :: scope) rest

/-- All that a statement looks up. -/
def Statement.allUses (statement : Statement) : List Use :=
  statement.uses ++ statement.body.flatMap Line.uses

/-- No line in the body of the class binds a name that a later line looks up. -/
def Statement.SparesItself (statement : Statement) : Prop :=
  statement.body.Pairwise fun first later => ∀ use ∈ later.uses, use.name ≠ first.name

/-- The use of what the statement binds. -/
def Statement.bound (statement : Statement) : Use := ⟨statement.name, statement.origin⟩

/-- The first statement does not bind a name that the second one looks up. -/
def Statement.Spares (first later : Statement) : Prop :=
  ∀ use ∈ later.allUses, use.name ≠ first.name

variable {scope : Scope} {use : Use} {statements others : List Statement}

/-! ## Lookups -/

theorem lookUp_cons (name : String) (origin : Origin) (scope : Scope) (other : String) :
    lookUp ((name, origin) :: scope) other =
      if other = name then origin else lookUp scope other := by
  rw [lookUp, List.lookup_cons]
  by_cases hName : other = name
  · rw [if_pos hName, beq_iff_eq.mpr hName]
    rfl
  · rw [if_neg hName, beq_eq_false_iff_ne.mpr hName]
    rfl

/-- One more binding does no harm if it is of another name, and it helps none who meant something
else. -/
theorem isIntended_cons {name : String} {origin : Origin} (h : use.origin ≠ origin) :
    use.IsIntended ((name, origin) :: scope) ↔ use.name ≠ name ∧ use.IsIntended scope := by
  rw [Use.IsIntended, lookUp_cons]
  by_cases hName : use.name = name
  · rw [if_pos hName]
    exact iff_of_false h.symm fun hSpared => hSpared.1 hName
  · rw [if_neg hName]
    exact (and_iff_right hName).symm

theorem isIntended_extend (h : ∀ statement ∈ statements, use.origin ≠ statement.origin) :
    use.IsIntended (extend scope statements) ↔
      use.name ∉ statements.map Statement.name ∧ use.IsIntended scope := by
  induction statements generalizing scope with
  | nil => simp [extend]
  | cons statement rest ih =>
      obtain ⟨hFirst, hRest⟩ := List.forall_mem_cons.mp h
      rw [extend, ih hRest, isIntended_cons hFirst, List.map_cons, List.mem_cons, not_or]
      tauto

theorem lookUp_extend {name : String} (h : name ∉ statements.map Statement.name) :
    lookUp (extend scope statements) name = lookUp scope name := by
  induction statements generalizing scope with
  | nil => rfl
  | cons statement rest ih =>
      rw [List.map_cons, List.mem_cons, not_or] at h
      rw [extend, ih h.2, lookUp_cons, if_neg h.1]

/-- What each statement binds is still found after all of them exactly if those with the same name
bind it to the same. -/
theorem forall_bound_isIntended :
    (∀ use ∈ statements.map Statement.bound, use.IsIntended (extend scope statements)) ↔
      (statements.map Statement.bound).Pairwise fun first later =>
        first.name = later.name → first.origin = later.origin := by
  induction statements generalizing scope with
  | nil => simp
  | cons statement rest ih =>
      rw [List.map_cons, List.forall_mem_cons, List.pairwise_cons, extend, ih]
      refine and_congr_left fun hRest => ?_
      have hFound : ∀ use ∈ rest.map Statement.bound,
          use.IsIntended (extend ((statement.name, statement.origin) :: scope) rest) :=
        ih.mpr hRest
      constructor
      · intro hIntended later hLater hName
        have hLast : lookUp _ later.name = later.origin := hFound later hLater
        rw [← hName] at hLast
        exact Eq.trans (Eq.symm hIntended) hLast
      · intro hSame
        by_cases hAgain : statement.name ∈ rest.map Statement.name
        · obtain ⟨later, hLater, hName⟩ := List.mem_map.mp hAgain
          have hBound := List.mem_map_of_mem (f := Statement.bound) hLater
          have hLast : lookUp _ later.name = later.origin := hFound _ hBound
          have hOrigin : statement.origin = later.origin := hSame _ hBound hName.symm
          rw [hName, ← hOrigin] at hLast
          exact hLast
        · show lookUp _ statement.name = statement.origin
          rw [lookUp_extend hAgain, lookUp_cons, if_pos rfl]

/-! ## Statements -/

theorem extend_append : extend scope (statements ++ others) =
    extend (extend scope statements) others := by
  induction statements generalizing scope with
  | nil => rfl
  | cons statement rest ih => exact ih

theorem intended_nil : Intended scope [] := List.forall_mem_nil _

theorem intended_cons {statement : Statement} :
    Intended scope (statement :: statements) ↔
      (∀ evaluation ∈ statement.evaluations scope, evaluation.IsIntended) ∧
        Intended ((statement.name, statement.origin) :: scope) statements := by
  rw [Intended, evaluations, List.forall_mem_append]
  rfl

theorem intended_append : Intended scope (statements ++ others) ↔
    Intended scope statements ∧ Intended (extend scope statements) others := by
  induction statements generalizing scope with
  | nil => exact (and_iff_right intended_nil).symm
  | cons statement rest ih =>
      rw [List.cons_append, intended_cons, intended_cons, ih, and_assoc, extend]

theorem forall_evaluations_map {uses : List Use} :
    (∀ evaluation ∈ uses.map (Evaluation.mk scope), evaluation.IsIntended) ↔
      ∀ use ∈ uses, use.IsIntended scope := List.forall_mem_map

/-- The attributes of a class only matter to one another. -/
theorem forall_bodyEvaluations {body : List Line}
    (h : ∀ use ∈ body.flatMap Line.uses, use.origin ≠ .attribute) :
    (∀ evaluation ∈ bodyEvaluations scope body, evaluation.IsIntended) ↔
      (body.Pairwise fun first later => ∀ use ∈ later.uses, use.name ≠ first.name) ∧
        ∀ use ∈ body.flatMap Line.uses, use.IsIntended scope := by
  induction body generalizing scope with
  | nil => simp [bodyEvaluations]
  | cons line rest ih =>
      rw [List.flatMap_cons, List.forall_mem_append] at h
      rw [bodyEvaluations, List.forall_mem_append, forall_evaluations_map, ih h.2,
        List.pairwise_cons, List.flatMap_cons, List.forall_mem_append]
      have hInside : (∀ use ∈ rest.flatMap Line.uses,
          use.IsIntended ((line.name, .attribute) :: scope)) ↔
          (∀ later ∈ rest, ∀ use ∈ later.uses, use.name ≠ line.name) ∧
            ∀ use ∈ rest.flatMap Line.uses, use.IsIntended scope := by
        have hEach : ∀ use ∈ rest.flatMap Line.uses,
            (use.IsIntended ((line.name, .attribute) :: scope) ↔
              use.name ≠ line.name ∧ use.IsIntended scope) :=
          fun use hUse => isIntended_cons (h.2 use hUse)
        rw [forall₂_congr hEach]
        simp only [List.mem_flatMap]
        grind
      rw [hInside]
      tauto

theorem forall_evaluations {statement : Statement}
    (h : ∀ use ∈ statement.allUses, use.origin ≠ .attribute) :
    (∀ evaluation ∈ statement.evaluations scope, evaluation.IsIntended) ↔
      statement.SparesItself ∧ ∀ use ∈ statement.allUses, use.IsIntended scope := by
  rw [Statement.allUses, List.forall_mem_append] at h
  rw [Statement.evaluations, List.forall_mem_append, forall_evaluations_map,
    forall_bodyEvaluations h.2, Statement.allUses, List.forall_mem_append, Statement.SparesItself]
  tauto

/-- **Statements that do not mean each other find what they mean** exactly if it is to be found
around them and none of them stands in the way of itself or of one after it. -/
theorem intended_iff
    (hAttribute : ∀ statement ∈ statements, ∀ use ∈ statement.allUses, use.origin ≠ .attribute)
    (hApart : ∀ first ∈ statements, ∀ later ∈ statements, ∀ use ∈ later.allUses,
      use.origin ≠ first.origin) :
    Intended scope statements ↔
      (∀ statement ∈ statements, statement.SparesItself) ∧
        (∀ statement ∈ statements, ∀ use ∈ statement.allUses, use.IsIntended scope) ∧
          statements.Pairwise Statement.Spares := by
  induction statements generalizing scope with
  | nil => simp [intended_nil]
  | cons statement rest ih =>
      obtain ⟨hFirst, hRest⟩ := List.forall_mem_cons.mp hAttribute
      have hApartRest : ∀ first ∈ rest, ∀ later ∈ rest, ∀ use ∈ later.allUses,
          use.origin ≠ first.origin := fun first hMem later hLater =>
        hApart first (List.mem_cons_of_mem _ hMem) later (List.mem_cons_of_mem _ hLater)
      have hInside : (∀ later ∈ rest, ∀ use ∈ later.allUses,
          use.IsIntended ((statement.name, statement.origin) :: scope)) ↔
          (∀ later ∈ rest, statement.Spares later) ∧
            ∀ later ∈ rest, ∀ use ∈ later.allUses, use.IsIntended scope := by
        have hEach : ∀ later ∈ rest, ∀ use ∈ later.allUses,
            (use.IsIntended ((statement.name, statement.origin) :: scope) ↔
              use.name ≠ statement.name ∧ use.IsIntended scope) :=
          fun later hLater use hUse => isIntended_cons
            (hApart statement List.mem_cons_self later (List.mem_cons_of_mem _ hLater) use hUse)
        rw [forall₂_congr fun later hLater => forall₂_congr (hEach later hLater)]
        simp only [Statement.Spares]
        grind
      rw [intended_cons, forall_evaluations hFirst, ih hRest hApartRest, hInside,
        List.forall_mem_cons, List.forall_mem_cons, List.pairwise_cons]
      tauto

end CommBindings.Python
