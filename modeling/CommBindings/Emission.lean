import CommBindings.Fault

set_option autoImplicit false

/-! # Emissions

An emission hands out items one after another and ends with a result or a fault. A fault does not
take back what was handed out before it. Emissions are put together as a monad: the items of the
second part follow those of the first, unless the first ended with a fault.
-/

namespace CommBindings

/-- Items and how their sequence ended. -/
structure Emission (ι α : Type) where
  items : List ι
  outcome : Except Fault α

namespace Emission

variable {ι κ α β : Type}

/-- No items and a result. -/
def result (a : α) : Emission ι α := ⟨[], .ok a⟩

/-- The items of the first part, and then those of the part that its result leads to. -/
def andThen (e : Emission ι α) (next : α → Emission ι β) : Emission ι β :=
  match e.outcome with
  | .error fault => ⟨e.items, .error fault⟩
  | .ok a => ⟨e.items ++ (next a).items, (next a).outcome⟩

instance : Monad (Emission ι) where
  pure := result
  bind := andThen

/-- One item. -/
def emit (item : ι) : Emission ι Unit := ⟨[item], .ok ()⟩

/-- Some items. -/
def emitAll (items : List ι) : Emission ι Unit := ⟨items, .ok ()⟩

/-- A result that may be a fault, and no items. -/
def require (result : Except Fault α) : Emission ι α := ⟨[], result⟩

/-- The parts for the members of a list, in order. -/
def forAll (members : List α) (part : α → Emission ι Unit) : Emission ι Unit :=
  match members with
  | [] => result ()
  | a :: rest => part a >>= fun _ => forAll rest part

/-- The items of an emission for each item, in order, and at the end the fault that ended the
items, if one did. -/
def flatMap (e : Emission ι Unit) (part : ι → Emission κ Unit) : Emission κ Unit :=
  forAll e.items part >>= fun _ => require e.outcome

/-- The items, if no fault ended them. -/
def toItems (e : Emission ι Unit) : Except Fault (List ι) := e.outcome.map fun _ => e.items

@[simp] theorem items_emit (item : ι) : (emit item).items = [item] := rfl

@[simp] theorem items_require (r : Except Fault α) : (require r : Emission ι α).items = [] := rfl

theorem andThen_of_ok {e : Emission ι α} {a : α} (next : α → Emission ι β)
    (h : e.outcome = .ok a) :
    e >>= next = ⟨e.items ++ (next a).items, (next a).outcome⟩ := by
  simp only [bind, andThen, h]

theorem andThen_of_error {e : Emission ι α} {fault : Fault} (next : α → Emission ι β)
    (h : e.outcome = .error fault) : e >>= next = ⟨e.items, .error fault⟩ := by
  simp only [bind, andThen, h]

end Emission

end CommBindings
