import CommBindings.Proofs.Contract.Frames
import CommBindings.Proofs.Contract.Places

set_option autoImplicit false

/-! # Visits that stop early

A visit that is asked for some fragments does only what they need: it hands out the first fragments of
the whole visit, and the last call that it makes is the one that the last of them is from. What a visit
will do is told by the calls that are to come: a step hands out what is left of the last call or makes the
next one (`step_upcoming`), and so a run makes as many calls as are enough for its fragments (`run_eq`).
-/

namespace CommBindings

/-! ## The calls of a visit -/

section

variable {ι : Type}

/-- The calls that some nodes lead to after those for earlier ones, each with its fragments. A call that
ends with a fault is the last. -/
def callsFor (call? : Node → Option (List Node → Emission ι Unit)) :
    List Node → List Node → Except Fault Unit → Emission (Node × List ι) Unit
  | _, [], outcome => .require outcome
  | earlier, node :: rest, outcome =>
    match call? node with
    | none => callsFor call? earlier rest outcome
    | some call => do
      Emission.emit (node, (call earlier).items)
      Emission.require (call earlier).outcome
      callsFor call? (earlier ++ [node]) rest outcome

/-- The calls of a visit that are to come, each with its fragments. -/
def Visit.upcoming (visit : Visit ι) : Emission (Node × List ι) Unit :=
  Emission.require visit.part.outcome >>= fun _ =>
    callsFor visit.call? visit.calls (Frame.allComing visit.frames).items
      (Frame.allComing visit.frames).outcome

/-- A step hands out the next fragment of the last call. When there is none, it makes the next call, or it
comes closer to it, or the visit ends since none is to come. -/
inductive Visit.StepTells (visit : Visit ι) : Visit.Turn ι → Prop where
  | ended {outcome : Except Fault Unit} (hPart : visit.part.items = [])
      (hUpcoming : visit.upcoming = .require outcome) : StepTells visit (.ended outcome)
  | passed {rest : Visit ι} (hPart : visit.part.items = []) (hRest : rest.part.items = [])
      (hCalls : rest.calls = visit.calls) (hUpcoming : visit.upcoming = rest.upcoming) :
      StepTells visit (.silent rest)
  | called {rest : Visit ι} {node : Node} (hPart : visit.part.items = [])
      (hCalls : rest.calls = visit.calls ++ [node])
      (hUpcoming : visit.upcoming = Emission.emit (node, rest.part.items) >>= fun _ => rest.upcoming) :
      StepTells visit (.silent rest)
  | handed {fragment : ι} {rest : Visit ι} (hPart : visit.part.items = fragment :: rest.part.items)
      (hCalls : rest.calls = visit.calls) (hUpcoming : visit.upcoming = rest.upcoming) :
      StepTells visit (.handed fragment rest)

namespace Visit

theorem upcoming_of_ok (visit : Visit ι) (h : visit.part.outcome = .ok ()) :
    visit.upcoming = callsFor visit.call? visit.calls (Frame.allComing visit.frames).items
      (Frame.allComing visit.frames).outcome := by
  rw [upcoming, h]
  rfl

/-- With a node the next call is made, or it is passed over. -/
theorem meet_upcoming {visit before : Visit ι} {node : Node} (hPart : visit.part = .result ())
    (hBefore : before.part.items = []) (hCalls : before.calls = visit.calls)
    (hUpcoming : before.upcoming = callsFor visit.call? visit.calls
      (node :: (Frame.allComing visit.frames).items) (Frame.allComing visit.frames).outcome) :
    before.StepTells (.silent (visit.meet node)) := by
  unfold meet
  split
  · next hCall =>
    refine .passed hBefore (congrArg Emission.items hPart) hCalls.symm ?_
    rw [hUpcoming, callsFor, hCall]
    exact (upcoming_of_ok visit (congrArg Emission.outcome hPart)).symm
  · next call hCall =>
    refine .called hBefore (congrArg (· ++ [node]) hCalls.symm) ?_
    rw [hUpcoming, callsFor, hCall]
    rfl

theorem advance_upcoming {visit : Visit ι} (hPart : visit.part = .result ()) :
    visit.StepTells visit.advance := by
  have hItems : visit.part.items = [] := congrArg Emission.items hPart
  have hUpcoming := upcoming_of_ok visit (congrArg Emission.outcome hPart)
  unfold advance
  split
  · next hFrames =>
    refine .ended hItems ?_
    rw [hUpcoming, hFrames]
    rfl
  · next frame rest hFrames =>
    rw [hFrames] at hUpcoming
    split
    · next hStep =>
      refine .ended hItems ?_
      rw [hUpcoming, allComing_fault hStep]
      rfl
    · next frames hStep =>
      refine .passed hItems hItems rfl ?_
      rw [hUpcoming, allComing_silent hStep]
      exact (upcoming_of_ok { visit with frames := frames ++ rest } (congrArg Emission.outcome hPart)).symm
    · next node frames hStep =>
      rw [allComing_node hStep] at hUpcoming
      exact meet_upcoming hPart hItems rfl hUpcoming

theorem step_upcoming (visit : Visit ι) : visit.StepTells visit.step := by
  unfold step
  split
  · next fragment rest outcome hPart =>
    refine .handed (congrArg Emission.items hPart) rfl ?_
    rw [upcoming, hPart]
    rfl
  · next fault hPart =>
    refine .ended (congrArg Emission.items hPart) ?_
    rw [upcoming, hPart]
    rfl
  · next hPart => exact advance_upcoming hPart

/-- To show something of a visit, it may be assumed of the visit that its next step leaves. -/
theorem induction {P : Visit ι → Prop}
    (step : ∀ visit : Visit ι, (∀ rest, visit.step = .silent rest → P rest) →
      (∀ fragment rest, visit.step = .handed fragment rest → P rest) → P visit)
    (visit : Visit ι) : P visit :=
  step visit (fun rest _ => induction step rest) (fun _ rest _ => induction step rest)
termination_by (Frame.totalWeight visit.frames, visit.part.items.length)
decreasing_by
  · next h => exact Prod.Lex.left _ _ (step_silent h)
  · next h =>
    obtain ⟨hItems, hFrames⟩ := step_handed h
    rw [hFrames, hItems]
    exact Prod.Lex.right _ (Nat.lt_succ_self _)

/-! ## Runs -/

variable {visit rest : Visit ι} {limit : Option Nat}

theorem run_zero (visit : Visit ι) : visit.run (some 0) = ⟨[], visit.calls, none⟩ := by
  rw [run, if_pos rfl]

theorem run_ended {outcome : Except Fault Unit} (hLimit : limit ≠ some 0)
    (h : visit.step = .ended outcome) : visit.run limit = ⟨[], visit.calls, some outcome⟩ := by
  rw [run, if_neg hLimit]
  split
  · next h' =>
    cases h.symm.trans h'
    rfl
  · next h' => cases h.symm.trans h'
  · next h' => cases h.symm.trans h'

theorem run_silent (hLimit : limit ≠ some 0) (h : visit.step = .silent rest) :
    visit.run limit = rest.run limit := by
  rw [run, if_neg hLimit]
  split
  · next h' => cases h.symm.trans h'
  · next h' =>
    cases h.symm.trans h'
    rfl
  · next h' => cases h.symm.trans h'

theorem run_handed {fragment : ι} (hLimit : limit ≠ some 0) (h : visit.step = .handed fragment rest) :
    visit.run limit = { rest.run (limit.map (· - 1)) with
      fragments := fragment :: (rest.run (limit.map (· - 1))).fragments } := by
  rw [run, if_neg hLimit]
  split
  · next h' => cases h.symm.trans h'
  · next h' => cases h.symm.trans h'
  · next h' =>
    cases h.symm.trans h'
    rfl

/-- The first fragments, as many as are wanted. -/
def upTo : Option Nat → List ι → List ι
  | none, fragments => fragments
  | some n, fragments => fragments.take n

/-- The first calls, as many as hand out what is wanted. -/
def enough : Option Nat → List (Node × List ι) → List (Node × List ι)
  | some 0, _ => []
  | _, [] => []
  | limit, call :: rest => call :: enough (limit.map (· - call.2.length)) rest

theorem upTo_cons (hLimit : limit ≠ some 0) (fragment : ι) (rest : List ι) :
    upTo limit (fragment :: rest) = fragment :: upTo (limit.map (· - 1)) rest := by
  rcases limit with _ | _ | n
  · rfl
  · exact absurd rfl hLimit
  · rfl

theorem enough_cons (hLimit : limit ≠ some 0) (call : Node × List ι) (rest : List (Node × List ι)) :
    enough limit (call :: rest) = call :: enough (limit.map (· - call.2.length)) rest := by
  rcases limit with _ | _ | n
  · rfl
  · exact absurd rfl hLimit
  · rfl

/-- The fragments that a visit has still to hand out. -/
def remaining (visit : Visit ι) : List ι :=
  visit.part.items ++ visit.upcoming.items.flatMap Prod.snd

/-- What is to come of a visit: the first of the fragments that are left, and only the calls for them. The
visit comes to its end if fewer are left than are wanted. -/
def foreseen (limit : Option Nat) (visit : Visit ι) : Taken ι where
  fragments := upTo limit visit.remaining
  calls := visit.calls ++
    (enough (limit.map (· - visit.part.items.length)) visit.upcoming.items).map Prod.fst
  outcome :=
    if limit.any (· ≤ visit.remaining.length) then none else some visit.upcoming.outcome

theorem foreseen_zero (visit : Visit ι) : visit.foreseen (some 0) = ⟨[], visit.calls, none⟩ := by
  simp [foreseen, upTo, enough]

theorem foreseen_ended {outcome : Except Fault Unit} (hLimit : limit ≠ some 0)
    (hPart : visit.part.items = []) (hUpcoming : visit.upcoming = .require outcome) :
    visit.foreseen limit = ⟨[], visit.calls, some outcome⟩ := by
  rw [foreseen, remaining, hPart, hUpcoming]
  rcases limit with _ | _ | n
  · simp [upTo, enough, Emission.require]
  · exact absurd rfl hLimit
  · simp [upTo, enough, Emission.require]

theorem foreseen_passed (hPart : visit.part.items = []) (hRest : rest.part.items = [])
    (hCalls : rest.calls = visit.calls) (hUpcoming : visit.upcoming = rest.upcoming) :
    visit.foreseen limit = rest.foreseen limit := by
  rw [foreseen, foreseen, remaining, remaining, hPart, hRest, hCalls, hUpcoming]

theorem foreseen_called {node : Node} (hLimit : limit ≠ some 0) (hPart : visit.part.items = [])
    (hCalls : rest.calls = visit.calls ++ [node])
    (hUpcoming : visit.upcoming = Emission.emit (node, rest.part.items) >>= fun _ => rest.upcoming) :
    visit.foreseen limit = rest.foreseen limit := by
  have hItems : visit.upcoming.items = (node, rest.part.items) :: rest.upcoming.items := by
    rw [hUpcoming, Emission.bind_items _ rfl]
    rfl
  have hOutcome : visit.upcoming.outcome = rest.upcoming.outcome := by
    rw [hUpcoming]
    rfl
  -- The fragments of the new call are still to be counted, on both sides.
  have hRemaining : visit.remaining = rest.remaining := by
    rw [remaining, remaining, hPart, hItems, List.flatMap_cons]
    rfl
  have hSame : limit.map (· - 0) = limit := by simp
  rw [foreseen, foreseen, hRemaining, hPart, hCalls, hItems, hOutcome, List.length_nil, hSame,
    enough_cons hLimit, List.map_cons, List.append_assoc]
  rfl

theorem foreseen_handed {fragment : ι} (hLimit : limit ≠ some 0)
    (hPart : visit.part.items = fragment :: rest.part.items) (hCalls : rest.calls = visit.calls)
    (hUpcoming : visit.upcoming = rest.upcoming) :
    visit.foreseen limit = { rest.foreseen (limit.map (· - 1)) with
      fragments := fragment :: (rest.foreseen (limit.map (· - 1))).fragments } := by
  have hRemaining : visit.remaining = fragment :: rest.remaining := by
    rw [remaining, remaining, hPart, hUpcoming, List.cons_append]
  rw [foreseen, foreseen, hRemaining, hPart, hCalls, hUpcoming, upTo_cons hLimit]
  rcases limit with _ | _ | n
  · rfl
  · exact absurd rfl hLimit
  · simp

/-- A run comes to what was foreseen. -/
theorem run_eq (limit : Option Nat) (visit : Visit ι) : visit.run limit = visit.foreseen limit := by
  induction visit using Visit.induction generalizing limit with
  | step visit ihSilent ihHanded =>
      by_cases hLimit : limit = some 0
      · rw [hLimit, run_zero, foreseen_zero]
      · have hTells := visit.step_upcoming
        cases hStep : visit.step with
        | ended outcome =>
            rw [hStep] at hTells
            cases hTells with
            | ended hPart hUpcoming =>
                rw [run_ended hLimit hStep, foreseen_ended hLimit hPart hUpcoming]
        | silent rest =>
            rw [hStep] at hTells
            rw [run_silent hLimit hStep, ihSilent rest hStep]
            cases hTells with
            | passed hPart hRest hCalls hUpcoming =>
                exact (foreseen_passed hPart hRest hCalls hUpcoming).symm
            | called hPart hCalls hUpcoming =>
                exact (foreseen_called hLimit hPart hCalls hUpcoming).symm
        | handed fragment rest =>
            rw [hStep] at hTells
            rw [run_handed hLimit hStep, ihHanded fragment rest hStep]
            cases hTells with
            | handed hPart hCalls hUpcoming =>
                exact (foreseen_handed hLimit hPart hCalls hUpcoming).symm

/-! ## Enough calls -/

theorem enough_none (calls : List (Node × List ι)) : enough none calls = calls := by
  induction calls with
  | nil => rfl
  | cons call rest ih =>
      have hLimit : (none : Option Nat) ≠ some 0 := nofun
      rw [enough_cons hLimit, Option.map_none, ih]

/-- If fewer fragments are handed out than are wanted, all calls are made for them. -/
theorem enough_all {calls : List (Node × List ι)} {n : Nat}
    (h : (calls.flatMap Prod.snd).length < n) : enough (some n) calls = calls := by
  induction calls generalizing n with
  | nil => rw [enough.eq_def]; cases n <;> rfl
  | cons call rest ih =>
      rw [List.flatMap_cons, List.length_append] at h
      have hRest : (rest.flatMap Prod.snd).length < n - call.2.length := by omega
      have hLimit : some n ≠ some 0 := fun hZero => by cases hZero; omega
      rw [enough_cons hLimit, Option.map_some, ih hRest]

/-- Otherwise the last call is the one that the last of the fragments is from. -/
theorem enough_first {calls : List (Node × List ι)} {n : Nat} (hn : 0 < n)
    (h : n ≤ (calls.flatMap Prod.snd).length) :
    ∃ before call after, calls = before ++ call :: after ∧ enough (some n) calls = before ++ [call] ∧
      (before.flatMap Prod.snd).length < n ∧ n ≤ ((before ++ [call]).flatMap Prod.snd).length := by
  induction calls generalizing n with
  | nil => exact absurd hn (Nat.not_lt.mpr h)
  | cons call rest ih =>
      have hLimit : some n ≠ some 0 := fun hZero => by cases hZero; omega
      rw [enough_cons hLimit, Option.map_some]
      -- The last fragment is from the first call, or it is found among those of the others.
      by_cases hCall : n ≤ call.2.length
      · refine ⟨[], call, rest, rfl, ?_, hn, ?_⟩
        · rw [Nat.sub_eq_zero_of_le hCall, enough]
          rfl
        · simpa using hCall
      · rw [List.flatMap_cons, List.length_append] at h
        obtain ⟨before, last, after, hSplit, hEnough, hBefore, hLast⟩ :=
          ih (n := n - call.2.length) (by omega) (by omega)
        refine ⟨call :: before, last, after, ?_, ?_, ?_, ?_⟩
        · rw [hSplit, List.cons_append]
        · rw [hEnough, List.cons_append]
        · rw [List.flatMap_cons, List.length_append]
          omega
        · rw [List.cons_append, List.flatMap_cons, List.length_append]
          omega

/-! ## What is handed out -/

/-- What calls for some nodes hand out, one after another, when there were calls for others before. -/
def handedOut (call? : Node → Option (List Node → Emission ι Unit)) : List Node → List Node → List ι
  | _, [] => []
  | earlier, node :: rest =>
    ((call? node).elim [] fun call => (call earlier).items) ++ handedOut call? (earlier ++ [node]) rest

variable {call? : Node → Option (List Node → Emission ι Unit)} {earlier nodes rest : List Node}
  {node : Node} {call : List Node → Emission ι Unit} {outcome : Except Fault Unit}

theorem callsFor_passed (h : call? node = none) :
    callsFor call? earlier (node :: rest) outcome = callsFor call? earlier rest outcome := by
  rw [callsFor, h]

theorem callsFor_failed {fault : Fault} (h : call? node = some call)
    (hEnds : (call earlier).outcome = .error fault) :
    callsFor call? earlier (node :: rest) outcome =
      ⟨[(node, (call earlier).items)], .error fault⟩ := by
  simp only [callsFor, h, hEnds]
  rfl

theorem callsFor_called (h : call? node = some call) (hEnds : (call earlier).outcome = .ok ()) :
    callsFor call? earlier (node :: rest) outcome =
      ⟨(node, (call earlier).items) :: (callsFor call? (earlier ++ [node]) rest outcome).items,
        (callsFor call? (earlier ++ [node]) rest outcome).outcome⟩ := by
  simp only [callsFor, h, hEnds]
  rfl

/-- If no call fails, there is one for each node at which there is something to call for. -/
theorem callsFor_nodes
    (hOk : ∀ node ∈ nodes, ∀ call, call? node = some call →
      ∀ earlier, (call earlier).outcome = .ok ()) :
    (callsFor call? earlier nodes outcome).items.map Prod.fst =
        nodes.filter (fun node => (call? node).isSome) ∧
      (callsFor call? earlier nodes outcome).outcome = outcome := by
  induction nodes generalizing earlier with
  | nil => exact ⟨rfl, rfl⟩
  | cons node rest ih =>
      obtain ⟨hNode, hRest⟩ := List.forall_mem_cons.mp hOk
      cases hCall : call? node with
      | none =>
          rw [callsFor_passed hCall, List.filter_cons_of_neg (by rw [hCall]; nofun)]
          exact ih hRest
      | some call =>
          rw [callsFor_called hCall (hNode call hCall earlier),
            List.filter_cons_of_pos (by rw [hCall]; rfl), List.map_cons]
          exact ⟨congrArg (node :: ·) (ih hRest).1, (ih hRest).2⟩

/-- The first calls hand out what calls for their nodes do. -/
theorem handedOut_calls {before after : List (Node × List ι)}
    (h : (callsFor call? earlier nodes outcome).items = before ++ after) :
    before.flatMap Prod.snd = handedOut call? earlier (before.map Prod.fst) := by
  induction nodes generalizing earlier before after with
  | nil =>
      rw [callsFor, Emission.items_require] at h
      rw [(List.append_eq_nil_iff.mp h.symm).1]
      rfl
  | cons node rest ih =>
      cases before with
      | nil => rfl
      | cons first others =>
          cases hCall : call? node with
          | none =>
              rw [callsFor_passed hCall] at h
              exact ih h
          | some call =>
              cases hEnds : (call earlier).outcome with
              | error fault =>
                  -- A call that fails is the last, so no other is left to be told of.
                  rw [callsFor_failed hCall hEnds] at h
                  obtain ⟨rfl, hOthers⟩ := List.cons_eq_cons.mp h
                  rw [(List.append_eq_nil_iff.mp hOthers.symm).1, List.map_singleton, handedOut, hCall]
                  rfl
              | ok _ =>
                  rw [callsFor_called hCall hEnds] at h
                  obtain ⟨rfl, hOthers⟩ := List.cons_eq_cons.mp h
                  rw [List.flatMap_cons, List.map_cons, handedOut, hCall, ih hOthers]
                  rfl

/-! ## Lazy visits -/

/-- A visit is lazy. Before a fragment is asked for there is no call. If more fragments are wanted than
there are, the whole visit is made. Otherwise the visit hands out the first fragments of the whole visit
and stops: the last call that it has made is the one that the last of these fragments is from. -/
structure IsLazy (visit : Visit ι) : Prop where
  unasked : visit.run (some 0) = ⟨[], [], none⟩
  whole : (visit.run none).fragments = handedOut visit.call? [] (visit.run none).calls
  short : ∀ n, (visit.run none).fragments.length < n → visit.run (some n) = visit.run none
  first : ∀ n, 0 < n → n ≤ (visit.run none).fragments.length → ∃ before node after,
    (visit.run none).calls = before ++ node :: after ∧
      (handedOut visit.call? [] before).length < n ∧
      n ≤ (handedOut visit.call? [] (before ++ [node])).length ∧
      visit.run (some n) = ⟨(visit.run none).fragments.take n, before ++ [node], none⟩

/-- A visit that has only begun hands out the first fragments of its calls. -/
theorem run_begun {visit : Visit ι} (hPart : visit.part = .result ()) (hCalls : visit.calls = [])
    (limit : Option Nat) :
    visit.run limit = ⟨upTo limit (visit.upcoming.items.flatMap Prod.snd),
      (enough limit visit.upcoming.items).map Prod.fst,
      if limit.any (· ≤ (visit.upcoming.items.flatMap Prod.snd).length) then none
      else some visit.upcoming.outcome⟩ := by
  have hRemaining : visit.remaining = visit.upcoming.items.flatMap Prod.snd := by
    rw [remaining, hPart]
    rfl
  have hSame : limit.map (· - 0) = limit := by simp
  rw [run_eq, foreseen, hRemaining, hPart, hCalls, Emission.result, List.length_nil, hSame, List.nil_append]

theorem isLazy {visit : Visit ι} (hPart : visit.part = .result ()) (hCalls : visit.calls = [])
    (hUpcoming : visit.upcoming = callsFor visit.call? [] nodes outcome) : visit.IsLazy := by
  have hHanded {before after : List (Node × List ι)} (h : visit.upcoming.items = before ++ after) :
      before.flatMap Prod.snd = handedOut visit.call? [] (before.map Prod.fst) := by
    rw [hUpcoming] at h
    exact handedOut_calls h
  have hWhole : visit.run none = ⟨visit.upcoming.items.flatMap Prod.snd,
      visit.upcoming.items.map Prod.fst, some visit.upcoming.outcome⟩ := by
    rw [run_begun hPart hCalls, enough_none]
    rfl
  constructor
  case unasked => rw [run_zero, hCalls]
  case whole =>
    rw [hWhole]
    exact hHanded (List.append_nil _).symm
  case short =>
    intro n hn
    rw [hWhole] at hn ⊢
    rw [run_begun hPart hCalls, enough_all hn]
    simp only [upTo, Option.any_some, decide_eq_true_eq, List.take_of_length_le hn.le,
      if_neg (Nat.not_le.mpr hn)]
  case first =>
    intro n hPositive hn
    rw [hWhole] at hn ⊢
    obtain ⟨before, call, after, hSplit, hEnough, hBefore, hLast⟩ := enough_first hPositive hn
    have hWith : visit.upcoming.items = (before ++ [call]) ++ after := by
      rw [hSplit, List.append_assoc, List.singleton_append]
    have hCall : (before ++ [call]).map Prod.fst = before.map Prod.fst ++ [call.1] := by
      rw [List.map_append, List.map_singleton]
    refine ⟨before.map Prod.fst, call.1, after.map Prod.fst, ?_, ?_, ?_, ?_⟩
    · rw [hSplit, List.map_append, List.map_cons]
    · rw [← hHanded hSplit]
      exact hBefore
    · rw [← hCall, ← hHanded hWith]
      exact hLast
    · rw [run_begun hPart hCalls, hEnough, hCall]
      simp only [upTo, Option.any_some, decide_eq_true_eq, if_pos hn]

variable {α : Type}

theorem ofNodes_upcoming (contract : Contract) (select : Node → Option α)
    (callback : List Node → Context → α → Emission ι Unit) :
    (ofNodes contract select callback).upcoming =
      callsFor (ofNodes contract select callback).call? [] contract.nodes.items
        contract.nodes.outcome := by
  rw [← coming_frames]
  rfl

theorem ofNodes_isLazy (contract : Contract) (select : Node → Option α)
    (callback : List Node → Context → α → Emission ι Unit) :
    (ofNodes contract select callback).IsLazy :=
  isLazy rfl rfl (ofNodes_upcoming contract select callback)

/-- If no call fails, the whole visit makes one for each node at which there is something to call for, and
it ends as the traversal does. -/
theorem ofNodes_calls {contract : Contract} {select : Node → Option α}
    {callback : List Node → Context → α → Emission ι Unit}
    (hOk : ∀ node ∈ contract.nodes.items, ∀ a, select node = some a →
      ∀ earlier, (callback earlier node.context a).outcome = .ok ()) :
    ((ofNodes contract select callback).run none).calls =
        contract.nodes.items.filter (fun node => (select node).isSome) ∧
      ((ofNodes contract select callback).run none).outcome = some contract.nodes.outcome := by
  have hMatching : (fun node => ((ofNodes contract select callback).call? node).isSome) =
      fun node => (select node).isSome :=
    funext fun node => Option.isSome_map
  have hCalls : ∀ node ∈ contract.nodes.items, ∀ call,
      (ofNodes contract select callback).call? node = some call →
        ∀ earlier, (call earlier).outcome = .ok () := by
    intro node hNode call hCall earlier
    obtain ⟨a, ha, rfl⟩ := Option.map_eq_some_iff.mp hCall
    exact hOk node hNode a ha earlier
  rw [run_begun rfl rfl, enough_none, ofNodes_upcoming, (callsFor_nodes hCalls).1,
    (callsFor_nodes hCalls).2, hMatching]
  exact ⟨rfl, rfl⟩

end Visit

end

/-! ## The visits of a contract -/

/-- The nodes are those with a schema of some kind in a contract, in the order of the document. -/
def Contract.HasInOrder (contract : Contract) (kind : Schema → Prop) (nodes : List Node) : Prop :=
  ∃ places : List SchemaPlace, places.Pairwise SchemaPlace.Before ∧
    (∀ place, place ∈ places ↔ ∃ schema, contract.schemaAt? place = some schema ∧ kind schema) ∧
    List.Forall₂ contract.NodeAt places nodes

theorem filter_inOrder {contract : Contract} (h : contract.nodes.outcome = .ok ())
    {kind : Schema → Prop} {select : Node → Bool}
    (hKind : ∀ node, select node = true ↔ kind node.schema) :
    contract.HasInOrder kind (contract.nodes.items.filter select) := by
  classical
  refine ⟨contract.places.filter fun place =>
    decide (∃ schema, contract.schemaAt? place = some schema ∧ kind schema), ?_, ?_, ?_⟩
  · exact (places_sorted contract).filter _
  · intro place
    rw [List.mem_filter, mem_places, decide_eq_true_eq, and_iff_right_iff_imp]
    rintro ⟨schema, hSchema, -⟩
    rw [hSchema]
    rfl
  · refine List.rel_filter (fun place node hNode => ?_) (contract_places h)
    change decide _ = true ↔ select node = true
    rw [decide_eq_true_eq, hKind, hNode.schema]
    simp

/-- A visit of a contract hands out the first fragments of the whole visit, and makes no call that they do
not need. If no call fails, the whole visit makes one for each object, or for each enumeration, that the
traversal comes to. If the traversal ends well, as it does with texts for keys, these are all objects and
all enumerations of the contract, in the order of the document. -/
theorem visits_lazy (contract : Contract) {ι : Type} :
    (∀ callback : List Node → Context → ObjectSchema → Emission ι Unit,
      (Visit.objects contract callback).IsLazy ∧
      ((∀ node ∈ contract.nodes.items, ∀ object, node.object? = some object →
          ∀ earlier, (callback earlier node.context object).outcome = .ok ()) →
        ((Visit.objects contract callback).run none).calls =
            contract.nodes.items.filter (fun node => node.object?.isSome) ∧
          ((Visit.objects contract callback).run none).outcome = some contract.nodes.outcome)) ∧
    (∀ callback : List Node → Context → List String → Emission ι Unit,
      (Visit.enums contract callback).IsLazy ∧
      ((∀ node ∈ contract.nodes.items, ∀ values, node.values? = some values →
          ∀ earlier, (callback earlier node.context values).outcome = .ok ()) →
        ((Visit.enums contract callback).run none).calls =
            contract.nodes.items.filter (fun node => node.values?.isSome) ∧
          ((Visit.enums contract callback).run none).outcome = some contract.nodes.outcome)) ∧
    (contract.nodes.outcome = .ok () →
      contract.HasInOrder (fun schema => ∃ object, schema = .object object)
          (contract.nodes.items.filter fun node => node.object?.isSome) ∧
        contract.HasInOrder (fun schema => ∃ values description, schema = .enumeration values description)
          (contract.nodes.items.filter fun node => node.values?.isSome)) ∧
    (contract.HasTextKeys → contract.nodes.outcome = .ok ()) := by
  refine ⟨fun callback => ⟨Visit.ofNodes_isLazy _ _ _, Visit.ofNodes_calls⟩,
    fun callback => ⟨Visit.ofNodes_isLazy _ _ _, Visit.ofNodes_calls⟩, fun hEnds => ⟨?_, ?_⟩,
    fun hKeys => (contract_named hKeys).1⟩
  · refine filter_inOrder hEnds fun node => ?_
    obtain ⟨context, schema⟩ := node
    cases schema <;> simp [Node.object?]
  · refine filter_inOrder hEnds fun node => ?_
    obtain ⟨context, schema⟩ := node
    cases schema <;> simp [Node.values?]

/-- A contract with objects in a param, in a result and among the shared schemas. One of them has nothing
that is required. -/
def galleryContract : Contract where
  direction := .backend
  source := "gallery-backend-openrpc.json"
  methods := [
    { name := "hang", summary := "Hangs pictures", description := none,
      params := [⟨"pictures", "The pictures", .array (.object
        ⟨some "picture", some "A picture",
          [(.text "frame", .object ⟨none, some "A frame", [], [], true⟩),
            (.text "width", .primitive .number none)], ["frame", "width"], false⟩) none, true⟩],
      result := some (.object ⟨none, some "Where the pictures are",
        [(.text "wall", .enumeration ["north", "south"] none), (.text "row", .primitive .integer none)],
        ["wall", "row"], false⟩) }]
  schemas := [(.text "room", .object
    ⟨none, some "A room", [(.text "name", .primitive .string none)], ["name"], false⟩)]
  document := []

/-- Hands out names, each with the number of the calls before. -/
def numbered (earlier : List Node) (names : List String) : Emission (Nat × String) Unit :=
  .emitAll (names.map fun name => (earlier.length, name))

/-- The visit of the objects of the gallery, for what each of them requires. -/
def galleryObjects : Visit (Nat × String) :=
  Visit.objects galleryContract fun earlier _ object => numbered earlier object.required

/-- The visit of the enumerations of the gallery, for their values. -/
def galleryEnums : Visit (Nat × String) :=
  Visit.enums galleryContract fun earlier _ values => numbered earlier values

/-- With three fragments the visit stands still inside the third of four calls. The second has handed out
nothing. -/
theorem gallery_lazy :
    galleryObjects.IsLazy ∧ galleryEnums.IsLazy ∧
      (∀ node ∈ galleryContract.nodes.items, ∀ object, node.object? = some object →
        ∀ earlier, (numbered earlier object.required).outcome = .ok ()) ∧
      (∀ node ∈ galleryContract.nodes.items, ∀ values, node.values? = some values →
        ∀ earlier, (numbered earlier values).outcome = .ok ()) ∧
      galleryContract.HasTextKeys ∧ galleryContract.nodes.outcome = .ok () ∧
      (galleryObjects.run none).calls.map Node.context = [
        [.text "pictures", .text "hang"],
        [.text "frame", .text "picture", .text "pictures", .text "hang"],
        [.text "hang_result"],
        [.text "room"]] ∧
      (galleryObjects.run none).fragments =
        [(0, "frame"), (0, "width"), (2, "wall"), (2, "row"), (3, "name")] ∧
      (galleryObjects.run (some 3)).calls.map Node.context = [
        [.text "pictures", .text "hang"],
        [.text "frame", .text "picture", .text "pictures", .text "hang"],
        [.text "hang_result"]] ∧
      (galleryObjects.run (some 3)).fragments = [(0, "frame"), (0, "width"), (2, "wall")] ∧
      (galleryEnums.run none).calls.map Node.context = [[.text "wall", .text "hang_result"]] ∧
      galleryContract.HasInOrder (fun schema => ∃ object, schema = .object object)
        (galleryObjects.run none).calls := by
  have hKeys : galleryContract.HasTextKeys := by
    refine ⟨List.forall_mem_singleton.mpr ⟨List.forall_mem_singleton.mpr rfl, ?_⟩, rfl⟩
    rintro schema ⟨⟩
    rfl
  obtain ⟨hObjects, hEnums, hInOrder, hEnds⟩ := visits_lazy galleryContract
  obtain ⟨hLazyObjects, hObjectCalls⟩ := hObjects fun earlier _ object => numbered earlier object.required
  obtain ⟨hLazyEnums, hEnumCalls⟩ := hEnums fun earlier _ values => numbered earlier values
  obtain ⟨hObjectNodes, -⟩ := hObjectCalls fun _ _ _ _ _ => rfl
  obtain ⟨hEnumNodes, -⟩ := hEnumCalls fun _ _ _ _ _ => rfl
  rw [← galleryObjects] at hObjectNodes hLazyObjects
  rw [← galleryEnums] at hEnumNodes hLazyEnums
  refine ⟨hLazyObjects, hLazyEnums, fun _ _ _ _ _ => rfl, fun _ _ _ _ _ => rfl, hKeys, hEnds hKeys, ?_,
    ?_, ?_, ?_, ?_, ?_⟩
  · rw [hObjectNodes]
    rfl
  · rw [hLazyObjects.whole, hObjectNodes]
    rfl
  · cbv
  · cbv
  · rw [hEnumNodes]
    rfl
  · rw [hObjectNodes]
    exact (hInOrder (hEnds hKeys)).1

end CommBindings
