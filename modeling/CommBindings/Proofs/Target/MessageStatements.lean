import CommBindings.Proofs.Target.TypeStatements

set_option autoImplicit false

/-! # Messages at import time

When the statements for messages and for the client find what they look up. The class for a request
looks up the enumeration of the requests' methods, the two choices look up the classes of single
messages, and all of these have names that are coined from those of the comm and its methods
(`messages_intended`).
-/

namespace CommBindings.Python

variable {comm : Comm} {hasProtocol : Bool} {before : List Statement} {name : String}

/-! ## Events and the client -/

theorem comm_declares_coined (comm : Comm) (ending : Ending) {statement : Statement}
    (hBuiltin : statement.origin ≠ .builtin) (hHeader : statement.origin ≠ .header)
    (hName : statement.name = comm.typeName ++ ending.text) : statement.DeclaresCoined :=
  ⟨hBuiltin, hHeader, _, ending, Naming.startsSmall_pascalCase _, hName⟩

theorem events_declare :
    ∀ statement ∈ statementsIn comm .frontendEvents, statement.DeclaresCoined :=
  List.forall_mem_singleton.mpr
    (comm_declares_coined comm .event Origin.noConfusion Origin.noConfusion rfl)

theorem events_intended (hBefore : ∀ statement ∈ before, statement.Declares) :
    Intended (extend (headScope hasProtocol) before) (statementsIn comm .frontendEvents) := by
  refine (small_intended_iff hBefore (fun statement hStatement =>
    (events_declare statement hStatement).declares) ?_).mpr ?_
  · exact List.forall_mem_singleton.mpr (enumeration_uses _ _)
  · exact List.forall_mem_singleton.mpr (enumeration_spares _ _)

theorem client_intended (hBackend : comm.backend.isSome = hasProtocol)
    (hBefore : ∀ statement ∈ before, statement.Declares) :
    Intended (extend (headScope hasProtocol) before) (statementsIn comm .client) ↔
      (comm.backend.isSome = true → "Protocol" ∉ before.map Statement.name) := by
  rw [statementsIn]
  split
  · next hSome =>
    subst hBackend
    have hHead : (Use.fixed "Protocol").IsIntended (headScope comm.backend.isSome) := by
      rw [hSome]
      decide
    have hDeclares : ∀ statement ∈ [(handler comm).statement], statement.Declares :=
      List.forall_mem_singleton.mpr
        (comm_declares_coined comm .handler Origin.noConfusion Origin.noConfusion rfl).declares
    have hUses : (handler comm).statement.allUses = [.fixed "Protocol"] := by
      show Use.fixed "Protocol" :: ((handler comm).handlers.map _).flatMap Line.uses = _
      rw [List.flatMap_map, List.flatMap_eq_nil_iff.mpr fun _ _ => rfl]
    have hSpares : (handler comm).statement.SparesItself :=
      List.pairwise_map.mpr (List.pairwise_of_forall fun _ _ => List.forall_mem_nil _)
    -- the functions look up nothing
    have hFunctions : ∀ scope, Intended scope [functionStatement (dispatch comm).name,
        functionStatement (parseRequest comm).name] := fun scope => List.forall_mem_nil _
    rw [← List.singleton_append, intended_append, and_iff_left (hFunctions _),
      capital_intended_iff hHead hBefore hDeclares, List.forall_mem_singleton,
      List.forall_mem_singleton, and_iff_right hSpares, hUses,
      and_iff_left (List.pairwise_singleton _ _), imp_iff_right (List.mem_singleton_self _),
      imp_iff_right hSome]
    rw [List.forall_mem_singleton, hUses]
    exact List.forall_mem_singleton.mpr (Or.inr rfl)
  · next hNone => exact iff_of_true intended_nil fun hSome => absurd hSome hNone

/-! ## Requests and replies -/

theorem tagEnum_eq (comm : Comm) : tagEnum comm = comm.typeName ++ Ending.request.text := rfl

theorem tags_declares : ((messages comm).tags.statement .tags).DeclaresCoined :=
  comm_declares_coined comm .request Origin.noConfusion Origin.noConfusion rfl

theorem requests_declare :
    ∀ statement ∈ requestStatements comm, statement.DeclaresCoined := by
  refine List.forall_mem_map.mpr (List.forall_mem_map.mpr fun method _ => ?_)
  exact method_declares_coined method .request Origin.noConfusion Origin.noConfusion rfl

theorem mem_replyStatements {statement : Statement} (h : statement ∈ replyStatements comm) :
    ∃ method ∈ comm.backendMethods, ∃ result,
      statement = (replyOf comm method result).statement method.name := by
  obtain ⟨method, hMethod, hReply⟩ := List.mem_filterMap.mp h
  obtain ⟨result, -, rfl⟩ := Option.map_eq_some_iff.mp hReply
  exact ⟨method, hMethod, result, rfl⟩

theorem replies_declare : ∀ statement ∈ replyStatements comm, statement.DeclaresCoined := by
  intro statement hStatement
  obtain ⟨method, -, result, rfl⟩ := mem_replyStatements hStatement
  exact method_declares_coined method .reply Origin.noConfusion Origin.noConfusion rfl

/-- The use of the enumeration of the requests' methods in the class for the request of a method. -/
def tagUse (comm : Comm) (method : Method) : Use :=
  ⟨inClass (requestName method) (tagEnum comm), .tags⟩

theorem isPrivate_request (name : String) :
    isPrivate (name ++ Ending.request.text) = true ↔ ['_', '_'] <+: name.toList := by
  have hSuffix : List.isSuffixOf ['_', '_'] (name ++ Ending.request.text).toList = false := by
    rw [Bool.eq_false_iff, ne_eq, List.isSuffixOf_iff_suffix, String.toList_append]
    rintro ⟨rest, hRest⟩
    have hLast := congrArg List.getLast? hRest
    rw [List.getLast?_append_of_ne_nil _ (by decide),
      List.getLast?_append_of_ne_nil _ (by decide)] at hLast
    exact absurd hLast (by decide)
  rw [isPrivate, hSuffix, Bool.not_false, Bool.and_true, List.isPrefixOf_iff_prefix,
    String.toList_append]
  match name.toList with
  | [] => decide
  | [c] =>
      have hSecond : '_' ≠ 'R' := by
        decide
      have hRequest : Ending.request.text.toList = 'R' :: "equest".toList := by
        decide
      rw [hRequest, List.singleton_append, List.cons_prefix_cons, List.cons_prefix_cons,
        List.cons_prefix_cons]
      exact iff_of_false (fun h => hSecond h.2.1) (fun h => absurd h.2 (by simp))
  | c :: d :: rest => simp [List.cons_prefix_cons]

/-- The name of the enumeration keeps its ending. -/
theorem tagUse_name (comm : Comm) (method : Method) :
    ∃ stem, (tagUse comm method).name = stem ++ Ending.request.text := by
  rw [tagUse, inClass, tagEnum_eq]
  split
  · exact ⟨_, (String.append_assoc ..).symm⟩
  · exact ⟨_, rfl⟩

/-- In the class for a request, the enumeration has its own name exactly if this is not private. -/
theorem tagUse_name_iff (comm : Comm) (method : Method) :
    (tagUse comm method).name = tagEnum comm ↔ ¬ ['_', '_'] <+: comm.typeName.toList := by
  have hOwner : ownerName (requestName method) ≠ "" := by
    intro hEmpty
    have hChars := congrArg String.toList hEmpty
    rw [ownerName, String.toList_ofList, String.toList_empty, List.dropWhile_eq_nil_iff] at hChars
    have hLetter : 't' ∈ (requestName method).toList := by
      rw [requestName, String.toList_append]
      exact List.mem_append_right _ (by decide)
    exact absurd (hChars 't' hLetter) (by decide)
  have hLonger : "_" ++ ownerName (requestName method) ++ tagEnum comm ≠ tagEnum comm := by
    intro hSame
    have hLength := congrArg (fun text => text.toList.length) hSame
    simp only [String.toList_append, List.length_append] at hLength
    have hLow : "_".toList.length = 1 := by
      decide
    omega
  rw [tagUse, inClass, ← isPrivate_request, ← tagEnum_eq]
  by_cases hPrivate : isPrivate (tagEnum comm) = true
  · rw [if_pos ⟨hPrivate, hOwner⟩]
    exact iff_of_false hLonger (not_not.mpr hPrivate)
  · rw [if_neg fun h => hPrivate h.1]
    exact iff_of_true rfl hPrivate

theorem request_uses (method : Method) :
    (∀ use ∈ (requestOf comm method).statement.allUses, use.IsSmall ∨ use = tagUse comm method) ∧
      tagUse comm method ∈ (requestOf comm method).statement.allUses := by
  have hField : (Use.fixed "field").IsSmall := ⟨_, by decide, rfl⟩
  have hClass : (Use.fixed "dataclass").IsSmall := ⟨_, by decide, rfl⟩
  have hParams : ∀ fields : List Field,
      ∀ use ∈ (fields.map (Field.line (requestName method))).flatMap Line.uses, use.IsSmall := by
    intro fields use hUse
    rw [List.flatMap_map] at hUse
    obtain ⟨field, -, hUse⟩ := List.mem_flatMap.mp hUse
    rw [List.mem_singleton.mp hUse]
    exact hField
  have hUses : (requestOf comm method).statement.allUses = Use.fixed "dataclass" ::
      ((paramsField method).toList.map (Field.line (requestName method))).flatMap Line.uses ++
        [.fixed "field", tagUse comm method, .fixed "field"] := by
    show Use.fixed "dataclass" :: ((paramsField method).toList.map (Field.line _) ++ [_, _] ++
      revivalLines (paramsField method).toList).flatMap Line.uses = _
    rw [List.flatMap_append, List.flatMap_append, revivalLines_uses, List.append_nil]
    rfl
  rw [hUses]
  constructor
  · intro use hUse
    rcases List.mem_append.mp hUse with hUse | hUse
    · rcases List.mem_cons.mp hUse with rfl | hUse
      · exact Or.inl hClass
      · exact Or.inl (hParams _ use hUse)
    · simp only [List.mem_cons, List.not_mem_nil, or_false] at hUse
      rcases hUse with rfl | rfl | rfl
      · exact Or.inl hField
      · exact Or.inr rfl
      · exact Or.inl hField
  · exact List.mem_append_right _ (List.mem_cons_of_mem _ List.mem_cons_self)

theorem params_line_name {className : String} {field : Field}
    (h : field.name = .ok (fieldName "params")) : (field.line className).name = "params" := by
  have hIdentifier : (fieldName "params").identifier = "params" := by
    decide
  show inClass className ((field.name.toOption.map FieldName.identifier).getD "") = "params"
  rw [h]
  show inClass className (fieldName "params").identifier = "params"
  rw [hIdentifier]
  exact if_neg fun hPrivate => absurd hPrivate.1 (by decide)

theorem request_spares (method : Method) : (requestOf comm method).statement.SparesItself := by
  have hTag : (tagUse comm method).name ≠ "params" := by
    obtain ⟨stem, hStem⟩ := tagUse_name comm method
    refine ne_of_lastThree ?_
    rw [hStem, lastThree_append _ _ (by decide)]
    decide
  have hField : ∀ name ∈ ["params", "method"], ∀ use ∈ [Use.fixed "field"], use.name ≠ name := by
    decide
  have hSecond : ∀ use ∈ [Use.fixed "field", tagUse comm method], use.name ≠ "params" :=
    List.forall_mem_cons.mpr ⟨by decide, List.forall_mem_singleton.mpr hTag⟩
  have hAfter : ∀ line ∈ [Line.mk [.fixed "field", tagUse comm method] "method",
      ⟨[.fixed "field"], "jsonrpc"⟩], ∀ use ∈ line.uses, use.name ≠ "params" :=
    List.forall_mem_cons.mpr
      ⟨hSecond, List.forall_mem_singleton.mpr (hField "params" (by decide))⟩
  show List.Pairwise _ ((paramsField method).toList.map (Field.line _) ++ [_, _] ++
    revivalLines (paramsField method).toList)
  rw [line_spares_iff, paramsField]
  split
  · refine List.pairwise_cons.mpr ⟨fun line hLine use hUse => ?_, ?_⟩
    · rw [params_line_name rfl]
      exact hAfter line hLine use hUse
    · exact List.pairwise_pair.mpr (hField "method" (by decide))
  · exact List.pairwise_pair.mpr (hField "method" (by decide))

theorem request_spares_iff {later : Method} (hTag : (tagUse comm later).name = tagEnum comm)
    (first : Method) :
    (requestOf comm first).statement.Spares (requestOf comm later).statement ↔
      first.stem ≠ comm.typeName := by
  constructor
  · intro h hSame
    refine h _ (request_uses later).2 (hTag.trans ?_)
    show tagEnum comm = first.stem ++ Ending.request.text
    rw [hSame, tagEnum_eq]
  · intro h use hUse hSame
    rcases (request_uses later).1 use hUse with ⟨name, hName, rfl⟩ | rfl
    · have hSmall : Naming.startsSmall (requestName first) = false :=
        Naming.startsSmall_append (Naming.startsSmall_pascalCase _) (by decide)
      exact small_ne hName hSmall hSame
    · have hCoined : Coined.mk comm.typeName .request = first.coin .request :=
        coined_name_injective (hTag.symm.trans hSame)
      exact h (congrArg Coined.stem hCoined).symm

/-- Requests look up no attributes and no requests. -/
theorem request_use_origin (method : Method) :
    ∀ use ∈ (requestOf comm method).statement.allUses,
      use.origin ≠ .attribute ∧ ∀ wire, use.origin ≠ .request wire := by
  intro use hUse
  rcases (request_uses method).1 use hUse with ⟨name, -, rfl⟩ | rfl
  · exact ⟨fixed_origin_ne Origin.noConfusion Origin.noConfusion name,
      fun wire => fixed_origin_ne Origin.noConfusion Origin.noConfusion name⟩
  · exact ⟨Origin.noConfusion, fun wire => Origin.noConfusion⟩

/-- The requests find what they mean around them, where only the enumeration of their methods is
bound as such, exactly if its name is not private. -/
theorem request_uses_intended (hBefore : ∀ statement ∈ before, statement.Declares)
    (hTags : ∀ use : Use, use.origin = .tags →
      (use.IsIntended (extend (headScope hasProtocol) before) ↔ use.name = tagEnum comm)) :
    (∀ method ∈ comm.backendMethods, ∀ use ∈ (requestOf comm method).statement.allUses,
        use.IsIntended (extend (headScope hasProtocol) before)) ↔
      (comm.backendMethods ≠ [] → ¬ ['_', '_'] <+: comm.typeName.toList) := by
  constructor
  · intro h hSome
    obtain ⟨method, hMethod⟩ := List.exists_mem_of_ne_nil _ hSome
    have hTag := h method hMethod _ (request_uses method).2
    exact (tagUse_name_iff comm method).mp ((hTags _ rfl).mp hTag)
  · intro h method hMethod use hUse
    rcases (request_uses method).1 use hUse with ⟨name, hName, rfl⟩ | rfl
    · exact small_isIntended hName hBefore
    · have hPublic := h (List.ne_nil_of_mem hMethod)
      exact (hTags _ rfl).mpr ((tagUse_name_iff comm method).mpr hPublic)

/-- The requests find what they mean exactly if, besides, no request but the last has the name of the
enumeration. -/
theorem requests_intended (hBefore : ∀ statement ∈ before, statement.Declares)
    (hTags : ∀ use : Use, use.origin = .tags →
      (use.IsIntended (extend (headScope hasProtocol) before) ↔ use.name = tagEnum comm)) :
    Intended (extend (headScope hasProtocol) before) (requestStatements comm) ↔
      (comm.backendMethods ≠ [] → ¬ ['_', '_'] <+: comm.typeName.toList) ∧
        comm.backendMethods.Pairwise fun first _ => first.stem ≠ comm.typeName := by
  have hStatements : requestStatements comm =
      comm.backendMethods.map fun method => (requestOf comm method).statement := List.map_map
  have hSpares : ∀ method ∈ comm.backendMethods, (requestOf comm method).statement.SparesItself :=
    fun method _ => request_spares method
  rw [hStatements, intended_iff, List.forall_mem_map, List.forall_mem_map, List.pairwise_map,
    and_iff_right hSpares, request_uses_intended hBefore hTags]
  · refine and_congr_right fun hPublic => List.Pairwise.iff_of_mem ?_
    intro first later _ hLater
    have hTag : (tagUse comm later).name = tagEnum comm :=
      (tagUse_name_iff comm later).mpr (hPublic (List.ne_nil_of_mem hLater))
    exact request_spares_iff hTag first
  · exact List.forall_mem_map.mpr fun method _ use hUse => (request_use_origin method use hUse).1
  · refine List.forall_mem_map.mpr fun first _ => List.forall_mem_map.mpr fun later _ => ?_
    exact fun use hUse => (request_use_origin later use hUse).2 first.name

theorem reply_uses : ∀ statement ∈ replyStatements comm, ∀ use ∈ statement.allUses, use.IsSmall := by
  intro statement hStatement use hUse
  obtain ⟨method, -, result, rfl⟩ := mem_replyStatements hStatement
  have hUse : use ∈ [Use.fixed "dataclass", .fixed "field"] := hUse
  rcases List.mem_pair.mp hUse with rfl | rfl
  · exact ⟨_, by decide, rfl⟩
  · exact ⟨_, by decide, rfl⟩

theorem reply_spares : ∀ statement ∈ replyStatements comm, statement.SparesItself := by
  intro statement hStatement
  obtain ⟨method, -, result, rfl⟩ := mem_replyStatements hStatement
  exact List.pairwise_singleton _ _

theorem replies_intended (hBefore : ∀ statement ∈ before, statement.Declares) :
    Intended (extend (headScope hasProtocol) before) (replyStatements comm) :=
  (small_intended_iff hBefore (fun statement hStatement =>
    (replies_declare statement hStatement).declares) reply_uses).mpr reply_spares

/-! ## Choices -/

theorem choice_uses {choice : Choice} {origins : List Origin} {p : Use → Prop} :
    (∀ use ∈ (choice.statement origins).allUses, p use) ↔
      (choice.members = [] → p (.fixed "NoReturn")) ∧ (choice.members ≠ [] → p (.fixed "Union")) ∧
        ∀ use ∈ List.zipWith Use.mk choice.members origins, p use := by
  show (∀ use ∈ (if choice.members.isEmpty then [Use.fixed "NoReturn"]
    else .fixed "Union" :: List.zipWith Use.mk choice.members origins) ++ [], p use) ↔ _
  rw [List.append_nil]
  cases choice.members with
  | nil => simp
  | cons member rest => simp

theorem choice_intended {scope : Scope} {choice : Choice} {origins : List Origin} :
    Intended scope [choice.statement origins] ↔
      (choice.members = [] → (Use.fixed "NoReturn").IsIntended scope) ∧
        (choice.members ≠ [] → (Use.fixed "Union").IsIntended scope) ∧
          ∀ use ∈ List.zipWith Use.mk choice.members origins, use.IsIntended scope := by
  have hEvaluations : (choice.statement origins).evaluations scope =
      (choice.statement origins).allUses.map (Evaluation.mk scope) := by
    rw [Statement.evaluations, Statement.allUses, List.map_append]
    rfl
  rw [intended_cons, and_iff_left intended_nil, hEvaluations, forall_evaluations_map, choice_uses]

/-- The members of a choice of classes for methods, and what they are meant to be. -/
theorem zipWith_methods (methods : List Method) (nameOf : Method → String)
    (originOf : Method → Origin) :
    List.zipWith Use.mk (methods.map nameOf) (methods.map originOf) =
      methods.map fun method => ⟨nameOf method, originOf method⟩ := by
  rw [List.zipWith_map, List.zipWith_self]

theorem requests_bound :
    (requestStatements comm).map Statement.bound =
      List.zipWith Use.mk (messages comm).requestChoice.members (requestOrigins comm) := by
  show ((comm.backendMethods.map (requestOf comm)).map Request.statement).map Statement.bound =
    List.zipWith Use.mk (comm.backendMethods.map requestName) _
  rw [requestOrigins, zipWith_methods, List.map_map, List.map_map]
  rfl

theorem replies_bound :
    (replyStatements comm).map Statement.bound =
      List.zipWith Use.mk (messages comm).replyChoice.members (replyOrigins comm) := by
  show (comm.backendMethods.filterMap _).map Statement.bound =
    List.zipWith Use.mk ((comm.backendMethods.filter Method.hasResult).map replyName) _
  rw [replyOrigins, zipWith_methods]
  induction comm.backendMethods with
  | nil => rfl
  | cons method rest ih =>
      cases hReply : method.reply? with
      | none =>
          have hNone : ¬ method.hasResult = true := by
            rw [Method.hasResult, hReply]
            exact Bool.false_ne_true
          rw [List.filterMap_cons_none (by rw [hReply]; rfl), List.filter_cons_of_neg hNone, ih]
      | some schema =>
          have hSome : method.hasResult = true := by
            rw [Method.hasResult, hReply]
            rfl
          rw [List.filterMap_cons_some (by rw [hReply]; rfl), List.filter_cons_of_pos hSome,
            List.map_cons, List.map_cons, ih]
          rfl

theorem ending_ne {first second : Ending} (h : first ≠ second) (stem other : String) :
    stem ++ first.text ≠ other ++ second.text := by
  intro hSame
  have hCoined : Coined.mk stem first = Coined.mk other second := coined_name_injective hSame
  exact h (congrArg Coined.ending hCoined)

/-- The requests are found after the replies if they were found before these. -/
theorem request_kept {scope : Scope} : ∀ use ∈ (requestStatements comm).map Statement.bound,
    (use.IsIntended (extend scope (replyStatements comm)) ↔ use.IsIntended scope) := by
  refine List.forall_mem_map.mpr (List.forall_mem_map.mpr (List.forall_mem_map.mpr ?_))
  intro method _
  rw [isIntended_extend, and_iff_right]
  · intro hMem
    obtain ⟨statement, hStatement, hName⟩ := List.mem_map.mp hMem
    obtain ⟨other, -, result, rfl⟩ := mem_replyStatements hStatement
    exact ending_ne (by decide : Ending.reply ≠ .request) _ _ hName
  · intro statement hStatement
    obtain ⟨other, -, result, rfl⟩ := mem_replyStatements hStatement
    exact Origin.noConfusion

/-- The choice of requests finds its members exactly if no two of them share a name. -/
theorem requests_found {scope : Scope} :
    (∀ use ∈ List.zipWith Use.mk (messages comm).requestChoice.members (requestOrigins comm),
      use.IsIntended (extend (extend scope (requestStatements comm)) (replyStatements comm))) ↔
      comm.backendMethods.Pairwise fun first later =>
        first.stem = later.stem → first.name = later.name := by
  rw [← requests_bound, forall₂_congr request_kept, forall_bound_isIntended, List.pairwise_map,
    requestStatements, List.pairwise_map, messages, List.pairwise_map]
  refine List.Pairwise.iff fun first later => ?_
  show (first.stem ++ Ending.request.text = later.stem ++ Ending.request.text →
    Origin.request first.name = .request later.name) ↔ _
  rw [Origin.request.injEq, String.append_left_inj]

theorem requestChoice_name (comm : Comm) :
    ((messages comm).requestChoice.statement (requestOrigins comm)).name =
      comm.typeName ++ "Rpc" ++ Ending.request.text := by
  rw [String.append_assoc]
  rfl

theorem replyChoice_name (comm : Comm) :
    ((messages comm).replyChoice.statement (replyOrigins comm)).name =
      comm.typeName ++ "Rpc" ++ Ending.reply.text := by
  rw [String.append_assoc]
  rfl

/-- The choice of replies finds its members if no two requests share a name. -/
theorem replies_found {scope : Scope}
    (h : comm.backendMethods.Pairwise fun first later =>
      first.stem = later.stem → first.name = later.name) :
    ∀ use ∈ List.zipWith Use.mk (messages comm).replyChoice.members (replyOrigins comm),
      use.IsIntended (extend (extend scope (replyStatements comm))
        [(messages comm).requestChoice.statement (requestOrigins comm)]) := by
  have hFound : ∀ use ∈ (replyStatements comm).map Statement.bound,
      use.IsIntended (extend scope (replyStatements comm)) := by
    rw [forall_bound_isIntended, replies_bound]
    show List.Pairwise _ (List.zipWith Use.mk
      ((comm.backendMethods.filter Method.hasResult).map replyName) _)
    rw [replyOrigins, zipWith_methods, List.pairwise_map]
    refine (h.filter _).imp fun hNames hSame => ?_
    exact congrArg Origin.reply (hNames (String.append_left_inj _ |>.mp hSame))
  rw [← replies_bound]
  intro use hUse
  obtain ⟨statement, hStatement, rfl⟩ := List.mem_map.mp hUse
  refine (isIntended_extend ?_).mpr ⟨?_, hFound _ hUse⟩
  · refine List.forall_mem_singleton.mpr ?_
    obtain ⟨method, -, result, rfl⟩ := mem_replyStatements hStatement
    exact Origin.noConfusion
  · obtain ⟨method, -, result, rfl⟩ := mem_replyStatements hStatement
    rw [List.map_singleton, List.mem_singleton, requestChoice_name]
    exact ending_ne (by decide : Ending.reply ≠ .request) _ _

theorem choices_declare : ∀ statement ∈ choiceStatements comm, statement.DeclaresCoined := by
  have hSmall : Naming.startsSmall (comm.typeName ++ "Rpc") = false :=
    Naming.startsSmall_append (Naming.startsSmall_pascalCase _) (by decide)
  refine List.forall_mem_cons.mpr ⟨?_, List.forall_mem_singleton.mpr ?_⟩
  · exact ⟨Origin.noConfusion, Origin.noConfusion, _, .request, hSmall, requestChoice_name comm⟩
  · exact ⟨Origin.noConfusion, Origin.noConfusion, _, .reply, hSmall, replyChoice_name comm⟩

/-- What begins with a capital is safe from coined names. -/
theorem capital_after_iff {after : List Statement} (hName : name ∈ capitalNames)
    (hBefore : ∀ statement ∈ before, statement.Declares)
    (hAfter : ∀ statement ∈ after, statement.DeclaresCoined) :
    (Use.fixed name).IsIntended (extend (headScope hasProtocol) (before ++ after)) ↔
      name ∉ before.map Statement.name := by
  have hAll : ∀ statement ∈ before ++ after, statement.Declares :=
    List.forall_mem_append.mpr ⟨hBefore, fun statement h => (hAfter statement h).declares⟩
  have hUncoined : IsUncoined name := isUncoined_capital (List.mem_cons_of_mem _ hName)
  rw [fixed_isIntended_iff (capital_isIntended hName) hAll, List.map_append, List.mem_append,
    not_or, and_iff_left (not_mem_of_coined hUncoined hAfter)]

/-- A choice after coined names finds its members and the name for choices, or that for no choice. -/
theorem choice_after_iff {after : List Statement} {choice : Choice} {origins : List Origin}
    (hBefore : ∀ statement ∈ before, statement.Declares)
    (hAfter : ∀ statement ∈ after, statement.DeclaresCoined) :
    Intended (extend (headScope hasProtocol) (before ++ after)) [choice.statement origins] ↔
      (choice.members = [] → "NoReturn" ∉ before.map Statement.name) ∧
        (choice.members ≠ [] → "Union" ∉ before.map Statement.name) ∧
          ∀ use ∈ List.zipWith Use.mk choice.members origins,
            use.IsIntended (extend (headScope hasProtocol) (before ++ after)) := by
  rw [choice_intended, capital_after_iff (by decide) hBefore hAfter,
    capital_after_iff (by decide) hBefore hAfter]

theorem requestChoice_members :
    (messages comm).requestChoice.members = [] ↔ comm.backendMethods = [] :=
  List.map_eq_nil_iff

theorem replyChoice_members :
    (messages comm).replyChoice.members = [] ↔
      ∀ method ∈ comm.backendMethods, method.hasResult = false := by
  show (comm.backendMethods.filter Method.hasResult).map replyName = [] ↔ _
  rw [List.map_eq_nil_iff, List.filter_eq_nil_iff]
  exact forall₂_congr fun method _ => Bool.not_eq_true _ ▸ Iff.rfl

theorem choices_intended {sent : List Statement}
    (hBefore : ∀ statement ∈ before, statement.Declares)
    (hSent : ∀ statement ∈ sent, statement.DeclaresCoined) :
    Intended (extend (headScope hasProtocol)
        (before ++ (sent ++ (requestStatements comm ++ replyStatements comm))))
        (choiceStatements comm) ↔
      (comm.backendMethods.Pairwise fun first later =>
        first.stem = later.stem → first.name = later.name) ∧
      (comm.backendMethods ≠ [] → "Union" ∉ before.map Statement.name) ∧
      ((∀ method ∈ comm.backendMethods, method.hasResult = false) →
        "NoReturn" ∉ before.map Statement.name) := by
  have hAfter : ∀ statement ∈ sent ++ (requestStatements comm ++ replyStatements comm),
      statement.DeclaresCoined :=
    List.forall_mem_append.mpr
      ⟨hSent, List.forall_mem_append.mpr ⟨requests_declare, replies_declare⟩⟩
  have hLater : ∀ statement ∈ (sent ++ (requestStatements comm ++ replyStatements comm)) ++
      [(messages comm).requestChoice.statement (requestOrigins comm)], statement.DeclaresCoined :=
    List.forall_mem_append.mpr
      ⟨hAfter, List.forall_mem_singleton.mpr (List.forall_mem_cons.mp choices_declare).1⟩
  have hScope : extend (headScope hasProtocol)
      (before ++ (sent ++ (requestStatements comm ++ replyStatements comm))) =
      extend (extend (extend (headScope hasProtocol) (before ++ sent)) (requestStatements comm))
        (replyStatements comm) := by
    simp only [extend_append]
  -- the choice of replies comes after that of requests, which changes nothing
  rw [choiceStatements, ← List.singleton_append, intended_append,
    choice_after_iff hBefore hAfter, ← extend_append, List.append_assoc before,
    choice_after_iff hBefore hLater, ne_eq, ne_eq, requestChoice_members, replyChoice_members,
    hScope, requests_found]
  constructor
  · rintro ⟨⟨-, hUnion, hNames⟩, hNone, -⟩
    exact ⟨hNames, hUnion, hNone⟩
  · rintro ⟨hNames, hUnion, hNone⟩
    have hNoResult : comm.backendMethods = [] →
        ∀ method ∈ comm.backendMethods, method.hasResult = false := by
      intro hNil
      rw [hNil]
      exact List.forall_mem_nil _
    refine ⟨⟨fun hNil => hNone (hNoResult hNil), hUnion, hNames⟩, hNone,
      fun hSome => hUnion fun hNil => hSome (hNoResult hNil), ?_⟩
    rw [← List.append_assoc before, extend_append, hScope]
    exact replies_found hNames

/-! ## All messages -/

/-- Once the enumeration of the requests' methods is declared, it is found under its name alone. -/
theorem tags_isIntended_iff (hOthers : ∀ statement ∈ before, statement.origin = .other)
    {use : Use} (hUse : use.origin = .tags) :
    use.IsIntended (extend (headScope hasProtocol)
      (before ++ [(messages comm).tags.statement .tags])) ↔ use.name = tagEnum comm := by
  have hEarlier : ¬ use.IsIntended (extend (headScope hasProtocol) before) := by
    have hHeader : ∀ statement ∈ headerStatements hasProtocol, statement.origin = .header := by
      cases hasProtocol <;> decide
    rw [headScope, ← extend_append, isIntended_extend, Use.IsIntended, hUse]
    · exact fun hFound => Origin.noConfusion hFound.2
    · refine List.forall_mem_append.mpr ⟨fun statement hMem => ?_, fun statement hMem => ?_⟩
      · rw [hUse, hHeader statement hMem]
        exact Origin.noConfusion
      · rw [hUse, hOthers statement hMem]
        exact Origin.noConfusion
  rw [extend_append]
  show lookUp ((tagEnum comm, .tags) :: _) use.name = use.origin ↔ _
  rw [lookUp_cons]
  split
  · next hName => exact iff_of_true hUse.symm hName
  · next hName => exact iff_of_false hEarlier hName

theorem messages_intended (hBefore : ∀ statement ∈ before, statement.Declares)
    (hOthers : ∀ statement ∈ before, statement.origin = .other) :
    Intended (extend (headScope hasProtocol) before) (statementsIn comm .backendUnions) ↔
      (comm.backendMethods ≠ [] → ¬ ['_', '_'] <+: comm.typeName.toList) ∧
      (comm.backendMethods.Pairwise fun first _ => first.stem ≠ comm.typeName) ∧
      (comm.backendMethods.Pairwise fun first later =>
        first.stem = later.stem → first.name = later.name) ∧
      (comm.backendMethods ≠ [] → "Union" ∉ before.map Statement.name) ∧
      ((∀ method ∈ comm.backendMethods, method.hasResult = false) →
        "NoReturn" ∉ before.map Statement.name) := by
  have hTags : Intended (extend (headScope hasProtocol) before)
      [(messages comm).tags.statement .tags] := by
    refine (small_intended_iff hBefore ?_ ?_).mpr ?_
    · exact List.forall_mem_singleton.mpr tags_declares.declares
    · exact List.forall_mem_singleton.mpr (enumeration_uses _ _)
    · exact List.forall_mem_singleton.mpr (enumeration_spares _ _)
  have hDeclared : ∀ statement ∈ before ++ [(messages comm).tags.statement .tags],
      statement.Declares :=
    List.forall_mem_append.mpr ⟨hBefore, List.forall_mem_singleton.mpr tags_declares.declares⟩
  have hRequests : ∀ statement ∈ before ++ [(messages comm).tags.statement .tags] ++
      requestStatements comm, statement.Declares :=
    List.forall_mem_append.mpr
      ⟨hDeclared, fun statement h => (requests_declare statement h).declares⟩
  rw [statementsIn, ← List.singleton_append, intended_append, and_iff_right hTags,
    ← extend_append, intended_append,
    requests_intended hDeclared fun _ hUse => tags_isIntended_iff hOthers hUse, ← extend_append,
    intended_append, and_iff_right (replies_intended hRequests), ← extend_append,
    List.append_assoc, List.append_assoc,
    choices_intended hBefore (List.forall_mem_singleton.mpr tags_declares), and_assoc]

theorem messages_declare :
    ∀ statement ∈ statementsIn comm .backendUnions, statement.DeclaresCoined :=
  List.forall_mem_cons.mpr ⟨tags_declares, List.forall_mem_append.mpr ⟨requests_declare,
    List.forall_mem_append.mpr ⟨replies_declare, choices_declare⟩⟩⟩

end CommBindings.Python
