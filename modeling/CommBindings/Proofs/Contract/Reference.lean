import CommBindings.Proofs.Contract.Typing

set_option autoImplicit false

/-! # References to what is declared

A reference takes the name of its last segment, whatever it leads to. It meets a declaration where
it leads to a shared schema, or through properties to an object, that has its name from the same
key (`Contract.declares`).
-/

namespace CommBindings

/-- Where a way through properties leads from a schema under a key: to the last key of the way and
the schema under it. -/
def Schema.reach (key : String) (schema : Schema) : List String → Option (String × Schema)
  | [] => some (key, schema)
  | [_] => none
  | word :: next :: rest =>
    match schema with
    | .object node =>
      if word = "properties" then
        (lookupEntry node.properties (.text next)).bind fun inner => inner.reach next rest
      else none
    | _ => none

/-- Whether a schema is declared under the name of its key: any shared schema is, and of the others
only an object, but no object that has another name of its own. -/
def Schema.bears (isShared : Bool) (key : String) : Schema → Bool
  | .object node => node.name.all fun own => Naming.pascalCase own = Naming.pascalCase key
  | _ => isShared

/-- Whether a pointer leads to a schema of the contract that is declared under the name of the
pointer's last segment. -/
def Contract.declares (contract : Contract) (pointer : String) : Bool :=
  match (segments pointer).filter (· ≠ "#") with
  | first :: second :: key :: path =>
    first = "components" && second = "schemas" &&
      ((lookupEntry contract.schemas (.text key)).bind fun schema => schema.reach key path).any
        fun reached =>
          reached.1 = lastSegment pointer && reached.2.bears path.isEmpty reached.1
  | _ => false

/-- Whether a pointer leads to a declared schema of one of the contracts. -/
def Comm.declares (comm : Comm) (pointer : String) : Bool :=
  comm.contracts.any fun contract => contract.declares pointer

/-! ## Lookups -/

theorem eq_of_canonical_text {key : Key} {name : String}
    (h : key.canonical = .inl (.text name)) : key = .text name := by
  unfold Scalar.canonical at h
  split at h
  · cases h
  · split at h <;> cases h
  · split at h <;> cases h
  · exact Sum.inl.inj h

theorem eq_of_sameKey_text {key : Key} {name : String} (h : key.sameKey (.text name) = true) :
    key = .text name := by
  unfold Scalar.sameKey at h
  split at h
  · next own other hOther =>
    cases hOther
    exact congrArg Scalar.text (of_decide_eq_true h)
  · exact eq_of_canonical_text (of_decide_eq_true h)

theorem mem_of_lookupEntry {α : Type} {entries : List (Key × α)} {name : String} {value : α}
    (h : lookupEntry entries (.text name) = some value) : (.text name, value) ∈ entries := by
  obtain ⟨⟨key, found⟩, hFind, hValue⟩ := Option.map_eq_some_iff.mp h
  have hKey : key = .text name := eq_of_sameKey_text (by simpa using List.find?_some hFind)
  rw [← hKey, ← hValue]
  exact List.mem_of_find?_eq_some hFind

/-! ## The way through properties -/

variable {nodes : List Node}

/-- The schema at the end of a way is come across under the last key of the way. -/
theorem Covered.reach {key last : String} {keys : Context} {schema target : Schema}
    {path : List String} (h : Covered nodes (.text key :: keys) schema)
    (hReach : schema.reach key path = some (last, target)) :
    ∃ rest, Covered nodes (.text last :: rest) target := by
  fun_induction Schema.reach key schema path generalizing keys with
  | case1 key schema =>
      cases hReach
      exact ⟨keys, h⟩
  | case2 => cases hReach
  | case3 key next rest node ih =>
      obtain ⟨inner, hInner, hRest⟩ := Option.bind_eq_some_iff.mp hReach
      have hProperty : Covered nodes (.text next :: ownerContext (.text key :: keys) node) inner :=
        h.property (mem_of_lookupEntry hInner)
      exact ih inner hProperty hRest
  | case4 => cases hReach
  | case5 => cases hReach

/-- The contract was read from a document. -/
def Contract.IsRead (contract : Contract) : Prop :=
  ∃ direction source document, Contract.read direction source document = .ok contract

theorem lookupEntry_cons {α : Type} (first key : Key) (value : α) (rest : List (Key × α)) :
    lookupEntry ((first, value) :: rest) key =
      if first.sameKey key then some value else lookupEntry rest key := by
  rw [lookupEntry, List.find?_cons]
  cases first.sameKey key with
  | true => rfl
  | false => rfl

end CommBindings
