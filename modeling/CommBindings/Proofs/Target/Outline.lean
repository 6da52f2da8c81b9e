import CommBindings.Proofs.Contract.Traversal
import CommBindings.Target.Outline

set_option autoImplicit false

/-! # What is declared, and how often

Declaring nodes under their names leaves no name out and declares none twice, and what is declared
under a name is the first node that bears it (`declareAll_declares`). So an outline that ends well
has an object for every object in the contracts and an enumeration for every enumeration, each name
once.
-/

namespace CommBindings

variable {δ : Type}

/-- Whether a node bears the name. -/
def bearsName (nameOf : Node → Option (Except Fault String)) (name : String) (node : Node) : Bool :=
  match nameOf node with
  | some (.ok own) => own = name
  | _ => false

theorem bearsName_iff {nameOf : Node → Option (Except Fault String)} {name : String} {node : Node} :
    bearsName nameOf name node = true ↔ nameOf node = some (.ok name) := by
  unfold bearsName
  split
  · next own hOwn => rw [hOwn, decide_eq_true_eq, Option.some.injEq, Except.ok.injEq]
  · next hOther => exact ⟨Bool.noConfusion, fun hName => absurd hName (hOther name)⟩

/-- Declarations of some nodes after the names in `seen`: every name of a node is declared, each
declaration is that of the first node with its name, and no name is declared twice. -/
structure Declares (nameOf : Node → Option (Except Fault String))
    (declaration : Node → String → Except Fault δ) (nameIn : δ → String) (seen : List String)
    (nodes : List Node) (items : List δ) : Prop where
  named : ∀ node ∈ nodes, ∀ named, nameOf node = some named →
    ∃ name, named = .ok name ∧ (name ∈ seen ∨ name ∈ items.map nameIn)
  first : ∀ d ∈ items, ∃ node, nodes.find? (bearsName nameOf (nameIn d)) = some node ∧
    declaration node (nameIn d) = .ok d
  fresh : ∀ name ∈ items.map nameIn, name ∉ seen
  nodup : (items.map nameIn).Nodup

variable {nameOf : Node → Option (Except Fault String)}
  {declaration : Node → String → Except Fault δ} {nameIn : δ → String}

/-- Each declaration is that of a node. -/
theorem Declares.origin {seen : List String} {nodes : List Node} {items : List δ}
    (h : Declares nameOf declaration nameIn seen nodes items) {d : δ} (hd : d ∈ items) :
    ∃ node ∈ nodes, nameOf node = some (.ok (nameIn d)) ∧ declaration node (nameIn d) = .ok d := by
  obtain ⟨node, hFirst, hDeclared⟩ := h.first d hd
  exact ⟨node, List.mem_of_find?_eq_some hFirst, bearsName_iff.mp (List.find?_some hFirst),
    hDeclared⟩

/-- One declaration has its name. -/
theorem Declares.filter_eq {seen : List String} {nodes : List Node} {items : List δ}
    (h : Declares nameOf declaration nameIn seen nodes items) {d : δ} (hd : d ∈ items) :
    items.filter (fun other => nameIn other = nameIn d) = [d] := by
  have hNodup := h.nodup
  clear h
  induction items with
  | nil => exact absurd hd List.not_mem_nil
  | cons first rest ih =>
      rw [List.map_cons, List.nodup_cons] at hNodup
      rcases List.mem_cons.mp hd with rfl | hd
      · have hNone : rest.filter (fun other => nameIn other = nameIn d) = [] := by
          refine List.filter_eq_nil_iff.mpr fun other hOther hSame => hNodup.1 ?_
          rw [← of_decide_eq_true hSame]
          exact List.mem_map_of_mem hOther
        rw [List.filter_cons, if_pos (decide_eq_true rfl), hNone]
      · have hOther : nameIn first ≠ nameIn d := fun hSame =>
          hNodup.1 (hSame ▸ List.mem_map_of_mem hd)
        rw [List.filter_cons, if_neg (by simpa using hOther)]
        exact ih hd hNodup.2

theorem declares_nil (seen : List String) : Declares nameOf declaration nameIn seen [] [] where
  named := fun _ hNode => absurd hNode List.not_mem_nil
  first := fun _ hd => absurd hd List.not_mem_nil
  fresh := fun _ hName => absurd hName List.not_mem_nil
  nodup := List.nodup_nil

/-- Declarations of nodes, and then those of others after the names declared by then. -/
theorem Declares.append {seen seen' : List String} {nodes others : List Node}
    {items more : List δ} (hFirst : Declares nameOf declaration nameIn seen nodes items)
    (hSeen : ∀ name, name ∈ seen' ↔ name ∈ seen ∨ name ∈ items.map nameIn)
    (hRest : Declares nameOf declaration nameIn seen' others more) :
    Declares nameOf declaration nameIn seen (nodes ++ others) (items ++ more) where
  named := by
    intro node hNode named hNamed
    rcases List.mem_append.mp hNode with hNode | hNode
    · obtain ⟨name, hOk, hName⟩ := hFirst.named node hNode named hNamed
      refine ⟨name, hOk, ?_⟩
      rw [List.map_append, List.mem_append, ← or_assoc]
      exact Or.inl hName
    · obtain ⟨name, hOk, hName⟩ := hRest.named node hNode named hNamed
      refine ⟨name, hOk, ?_⟩
      rw [List.map_append, List.mem_append, ← or_assoc, ← hSeen]
      exact hName
  first := by
    intro d hd
    rcases List.mem_append.mp hd with hd | hd
    · obtain ⟨node, hFind, hDeclared⟩ := hFirst.first d hd
      exact ⟨node, by rw [List.find?_append, hFind, Option.some_or], hDeclared⟩
    · obtain ⟨node, hFind, hDeclared⟩ := hRest.first d hd
      -- no node before bears the name, for then it would have been declared there
      have hNone : nodes.find? (bearsName nameOf (nameIn d)) = none := by
        refine List.find?_eq_none.mpr fun other hOther hBears => ?_
        obtain ⟨name, hOk, hName⟩ := hFirst.named other hOther _ (bearsName_iff.mp hBears)
        cases hOk
        exact hRest.fresh _ (List.mem_map_of_mem hd) ((hSeen _).mpr hName)
      exact ⟨node, by rw [List.find?_append, hNone, Option.none_or, hFind], hDeclared⟩
  fresh := by
    intro name hName
    rw [List.map_append, List.mem_append] at hName
    rcases hName with hName | hName
    · exact hFirst.fresh name hName
    · exact fun hOld => hRest.fresh name hName ((hSeen name).mpr (Or.inl hOld))
  nodup := by
    rw [List.map_append, List.nodup_append]
    refine ⟨hFirst.nodup, hRest.nodup, ?_⟩
    rintro name hName _ hOther rfl
    exact hRest.fresh name hOther ((hSeen name).mpr (Or.inr hName))

/-- A node needs no declaration if it has no name or its name is declared already. -/
theorem declares_skipped {seen : List String} {node : Node}
    (h : ∀ named, nameOf node = some named → ∃ name ∈ seen, named = .ok name) :
    Declares nameOf declaration nameIn seen [node] [] where
  named := by
    intro n hn named hNamed
    rw [List.mem_singleton.mp hn] at hNamed
    obtain ⟨name, hSeen, hOk⟩ := h named hNamed
    exact ⟨name, hOk, Or.inl hSeen⟩
  first := fun _ hd => absurd hd List.not_mem_nil
  fresh := fun _ hName => absurd hName List.not_mem_nil
  nodup := List.nodup_nil

theorem declares_new {seen : List String} {node : Node} {d : δ}
    (hName : nameOf node = some (.ok (nameIn d))) (hNew : nameIn d ∉ seen)
    (hDeclared : declaration node (nameIn d) = .ok d) :
    Declares nameOf declaration nameIn seen [node] [d] where
  named := by
    intro n hn named hNamed
    rw [List.mem_singleton.mp hn, hName, Option.some.injEq] at hNamed
    exact ⟨nameIn d, hNamed.symm, Or.inr (List.mem_singleton_self _)⟩
  first := by
    refine List.forall_mem_singleton.mpr ⟨node, ?_, hDeclared⟩
    rw [List.find?_singleton, bearsName_iff.mpr hName, if_pos rfl]
  fresh := List.forall_mem_singleton.mpr hNew
  nodup := List.nodup_singleton _

/-- What becomes of the first of some nodes: it is skipped, or it brings a new name, which is
declared here and seen from here on. -/
theorem declareFirst_cases {node : Node} {rest : List Node} {seen seen' : List String}
    (h : (declareFirst nameOf declaration seen (node :: rest)).outcome = .ok seen') :
    ((∀ named, nameOf node = some named → ∃ name ∈ seen, named = .ok name) ∧
      (declareFirst nameOf declaration seen rest).outcome = .ok seen' ∧
      (declareFirst nameOf declaration seen (node :: rest)).items =
        (declareFirst nameOf declaration seen rest).items) ∨
    ∃ name d, nameOf node = some (.ok name) ∧ name ∉ seen ∧ declaration node name = .ok d ∧
      (declareFirst nameOf declaration (name :: seen) rest).outcome = .ok seen' ∧
      (declareFirst nameOf declaration seen (node :: rest)).items =
        d :: (declareFirst nameOf declaration (name :: seen) rest).items := by
  rw [declareFirst] at h ⊢
  cases hNameOf : nameOf node with
  | none =>
      rw [hNameOf] at h
      exact Or.inl ⟨nofun, h, rfl⟩
  | some named =>
      rw [hNameOf] at h
      obtain ⟨name, hName, hThen⟩ := Emission.bind_outcome.mp h
      have hNamed : named = .ok name := hName
      subst hNamed
      simp only [Emission.bind_items _ hName]
      by_cases hOld : seen.contains name = true
      · rw [if_pos hOld] at hThen ⊢
        refine Or.inl ⟨fun named hNamed => ?_, hThen, rfl⟩
        exact ⟨name, List.contains_iff_mem.mp hOld, (Option.some.inj hNamed).symm⟩
      · rw [if_neg hOld] at hThen ⊢
        obtain ⟨d, hDeclared, hThen⟩ := Emission.bind_outcome.mp hThen
        obtain ⟨⟨⟩, -, hThen⟩ := Emission.bind_outcome.mp hThen
        refine Or.inr ⟨name, d, rfl, fun hMem => hOld (List.contains_iff_mem.mpr hMem), hDeclared,
          hThen, ?_⟩
        rw [Emission.bind_items _ hDeclared, Emission.bind_items _ rfl]
        rfl

theorem declareFirst_declares
    (hNameIn : ∀ node name d, declaration node name = .ok d → nameIn d = name)
    {nodes : List Node} {seen seen' : List String}
    (h : (declareFirst nameOf declaration seen nodes).outcome = .ok seen') :
    Declares nameOf declaration nameIn seen nodes
        (declareFirst nameOf declaration seen nodes).items ∧
      ∀ name, name ∈ seen' ↔ name ∈ seen ∨
        name ∈ (declareFirst nameOf declaration seen nodes).items.map nameIn := by
  induction nodes generalizing seen with
  | nil =>
      cases h
      exact ⟨declares_nil _, fun name => (or_iff_left List.not_mem_nil).symm⟩
  | cons node rest ih =>
      rcases declareFirst_cases h with ⟨hOld, hRest, hItems⟩ |
        ⟨name, d, hName, hNew, hDeclared, hRest, hItems⟩
      · obtain ⟨hDeclares, hSeen⟩ := ih hRest
        rw [hItems]
        have hKept : ∀ name : String, name ∈ seen ↔
            name ∈ seen ∨ name ∈ ([] : List δ).map nameIn :=
          fun name => (or_iff_left List.not_mem_nil).symm
        exact ⟨(declares_skipped hOld).append hKept hDeclares, hSeen⟩
      · obtain ⟨hDeclares, hSeen⟩ := ih hRest
        have hIn : nameIn d = name := hNameIn node name d hDeclared
        have hOne : Declares nameOf declaration nameIn seen [node] [d] := by
          rw [← hIn] at hName hNew hDeclared
          exact declares_new hName hNew hDeclared
        have hGrown : ∀ other, other ∈ name :: seen ↔
            other ∈ seen ∨ other ∈ [d].map nameIn := by
          intro other
          rw [List.map_singleton, List.mem_singleton, List.mem_cons, hIn, or_comm]
        rw [hItems]
        refine ⟨hOne.append hGrown hDeclares, fun other => ?_⟩
        rw [hSeen, hGrown, or_assoc, ← List.mem_append, ← List.map_append]
        rfl

/-- The nodes of contracts, one contract after another. -/
def allNodes (contracts : List Contract) : List Node :=
  contracts.flatMap fun contract => contract.nodes.items

/-- Declaring the nodes of contracts ends well only if the contracts can be walked through, and then
no name is left out and none is declared twice. -/
theorem declareAll_declares
    (hNameIn : ∀ node name d, declaration node name = .ok d → nameIn d = name)
    {contracts : List Contract} {seen : List String}
    (h : (declareAll nameOf declaration seen contracts).outcome = .ok ()) :
    (∀ contract ∈ contracts, contract.nodes.outcome = .ok ()) ∧
      Declares nameOf declaration nameIn seen (allNodes contracts)
        (declareAll nameOf declaration seen contracts).items := by
  induction contracts generalizing seen with
  | nil => exact ⟨fun _ hMem => absurd hMem List.not_mem_nil, declares_nil seen⟩
  | cons contract rest ih =>
      rw [declareAll] at h ⊢
      obtain ⟨seen', hFirst, h⟩ := Emission.bind_outcome.mp h
      obtain ⟨⟨⟩, hNodes, h⟩ := Emission.bind_outcome.mp h
      obtain ⟨hRestNodes, hRest⟩ := ih h
      obtain ⟨hDeclares, hSeen⟩ := declareFirst_declares hNameIn hFirst
      refine ⟨List.forall_mem_cons.mpr ⟨hNodes, hRestNodes⟩, ?_⟩
      rw [Emission.bind_items _ hFirst, Emission.bind_items _ hNodes]
      exact hDeclares.append hSeen hRest

/-! ## Objects and enumerations -/

/-- What is declared under a name is the object at the node. -/
theorem declareObject_ok {node : Node} {name : String} {d : ObjectDeclaration}
    (h : node.declareObject name = .ok d) :
    d.name = name ∧ node.schema = .object d.node ∧
      describeObject node.context d.node = .ok d.description := by
  unfold Node.declareObject at h
  split at h
  · next object hObject =>
    obtain ⟨description, hDescription, h⟩ := bind_eq_ok.mp h
    cases h
    exact ⟨rfl, hObject, hDescription⟩
  · cases h

/-- What is declared under a name are the values at the node. -/
theorem declareEnum_ok {node : Node} {name : String} {d : EnumDeclaration}
    (h : node.declareEnum name = .ok d) :
    d.name = name ∧ d.values = node.values?.getD [] ∧
      describeEnum node.context = .ok d.description := by
  unfold Node.declareEnum at h
  obtain ⟨description, hDescription, h⟩ := bind_eq_ok.mp h
  cases h
  exact ⟨rfl, rfl, hDescription⟩

variable {comm : Comm}

theorem objects_declares (h : comm.objects.outcome = .ok ()) :
    (∀ contract ∈ comm.contracts, contract.nodes.outcome = .ok ()) ∧
      Declares Node.objectName? Node.declareObject ObjectDeclaration.name []
        (allNodes comm.contracts) comm.objects.items :=
  declareAll_declares (fun _ _ _ hDeclared => (declareObject_ok hDeclared).1) h

theorem enums_declares (h : comm.enums.outcome = .ok ()) :
    Declares Node.enumName? Node.declareEnum EnumDeclaration.name []
      (allNodes comm.contracts) comm.enums.items :=
  (declareAll_declares (fun _ _ _ hDeclared => (declareEnum_ok hDeclared).1) h).2

end CommBindings
