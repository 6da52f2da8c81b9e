import CommBindings.Emission
import CommBindings.Proofs.Results

set_option autoImplicit false

/-! # Emissions that end well

An emission that is put together from parts ends with a result if its parts do, and then it hands
out what they hand out.
-/

namespace CommBindings.Emission

variable {ι κ α β : Type}

theorem bind_outcome {e : Emission ι α} {next : α → Emission ι β} {b : β} :
    (e >>= next).outcome = .ok b ↔ ∃ a, e.outcome = .ok a ∧ (next a).outcome = .ok b := by
  cases hOutcome : e.outcome with
  | error fault =>
      rw [andThen_of_error next hOutcome]
      constructor
      · intro h
        cases h
      · rintro ⟨a, h, -⟩
        cases h
  | ok a =>
      rw [andThen_of_ok next hOutcome]
      constructor
      · intro h
        exact ⟨a, rfl, h⟩
      · rintro ⟨a', h, hNext⟩
        cases h
        exact hNext

theorem bind_items {e : Emission ι α} {a : α} (next : α → Emission ι β) (h : e.outcome = .ok a) :
    (e >>= next).items = e.items ++ (next a).items := by
  rw [andThen_of_ok next h]

theorem map_id (e : Emission ι α) : id <$> e = e := by
  change e >>= pure = e
  cases hOutcome : e.outcome with
  | error fault => rw [andThen_of_error _ hOutcome, ← hOutcome]
  | ok a =>
      rw [andThen_of_ok _ hOutcome]
      change Emission.mk (e.items ++ []) (.ok a) = e
      rw [List.append_nil, ← hOutcome]

theorem andThen_assoc {γ : Type} (e : Emission ι α) (next : α → Emission ι β)
    (last : β → Emission ι γ) : e >>= next >>= last = e >>= fun a => next a >>= last := by
  cases hOutcome : e.outcome with
  | error fault =>
      rw [andThen_of_error _ hOutcome, andThen_of_error _ hOutcome, andThen_of_error _ rfl]
  | ok a =>
      rw [andThen_of_ok _ hOutcome, andThen_of_ok _ hOutcome]
      cases hNext : (next a).outcome with
      | error fault => rw [andThen_of_error _ rfl, andThen_of_error _ hNext]
      | ok b => rw [andThen_of_ok _ rfl, andThen_of_ok _ hNext, List.append_assoc]

instance : LawfulMonad (Emission ι) :=
  LawfulMonad.mk' (Emission ι) map_id (fun _ _ => rfl) andThen_assoc

theorem forAll_append (members others : List α) (part : α → Emission ι Unit) :
    forAll (members ++ others) part = (forAll members part >>= fun _ => forAll others part) := by
  induction members with
  | nil => exact (pure_bind (m := Emission ι) () fun _ => forAll others part).symm
  | cons a rest ih => rw [List.cons_append, forAll, forAll, bind_assoc, ih]

theorem forAll_map (f : β → α) (members : List β) (part : α → Emission ι Unit) :
    forAll (members.map f) part = forAll members fun b => part (f b) := by
  induction members with
  | nil => rfl
  | cons b rest ih => rw [List.map_cons, forAll, forAll, ih]

theorem forAll_singleton (a : α) (part : α → Emission ι Unit) : forAll [a] part = part a :=
  bind_pure (part a)

theorem forAll_ok {members : List α} {part : α → Emission ι Unit} :
    (forAll members part).outcome = .ok () ↔ ∀ a ∈ members, (part a).outcome = .ok () := by
  induction members with
  | nil =>
      constructor
      · exact fun _ a ha => absurd ha List.not_mem_nil
      · exact fun _ => rfl
  | cons a rest ih =>
      rw [forAll, bind_outcome, List.forall_mem_cons, ← ih]
      constructor
      · rintro ⟨⟨⟩, hFirst, hRest⟩
        exact ⟨hFirst, hRest⟩
      · rintro ⟨hFirst, hRest⟩
        exact ⟨(), hFirst, hRest⟩

theorem items_forAll {members : List α} {part : α → Emission ι Unit}
    (h : (forAll members part).outcome = .ok ()) :
    (forAll members part).items = members.flatMap fun a => (part a).items := by
  induction members with
  | nil => rfl
  | cons a rest ih =>
      obtain ⟨⟨⟩, hFirst, hRest⟩ := bind_outcome.mp h
      rw [forAll, bind_items _ hFirst, ih hRest, List.flatMap_cons]

theorem mem_forAll {members : List α} {part : α → Emission ι Unit}
    (h : ∀ a ∈ members, (part a).outcome = .ok ()) (item : ι) :
    item ∈ (forAll members part).items ↔ ∃ a ∈ members, item ∈ (part a).items := by
  rw [items_forAll (forAll_ok.mpr h), List.mem_flatMap]

theorem flatMap_ok {e : Emission ι Unit} {part : ι → Emission κ Unit} :
    (e.flatMap part).outcome = .ok () ↔
      (∀ item ∈ e.items, (part item).outcome = .ok ()) ∧ e.outcome = .ok () := by
  rw [flatMap, bind_outcome, ← forAll_ok]
  constructor
  · rintro ⟨⟨⟩, hParts, hEnd⟩
    exact ⟨hParts, hEnd⟩
  · rintro ⟨hParts, hEnd⟩
    exact ⟨(), hParts, hEnd⟩

theorem toItems_ok {e : Emission ι Unit} {items : List ι} :
    e.toItems = .ok items ↔ e.outcome = .ok () ∧ e.items = items := by
  rw [toItems, map_eq_ok]
  constructor
  · rintro ⟨⟨⟩, hEnd, hItems⟩
    exact ⟨hEnd, hItems⟩
  · rintro ⟨hEnd, hItems⟩
    exact ⟨(), hEnd, hItems⟩

end CommBindings.Emission
