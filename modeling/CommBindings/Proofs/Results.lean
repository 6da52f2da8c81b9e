import Mathlib

set_option autoImplicit false

/-! # Results of computations that can fail

How a computation in `Except` comes to a result: a sequence does if its parts do, a list of
computations does if each of them does, and what every step of a fold keeps, the fold keeps. What
the parts of a computation fail with is what all of it can fail with (`FailsWith`).
-/

namespace CommBindings

variable {ε α β : Type}

theorem bind_eq_ok {x : Except ε α} {f : α → Except ε β} {b : β} :
    x >>= f = .ok b ↔ ∃ a, x = .ok a ∧ f a = .ok b := by
  cases x with
  | error e =>
      constructor
      · intro h
        cases h
      · rintro ⟨a, h, -⟩
        cases h
  | ok a =>
      constructor
      · intro h
        exact ⟨a, rfl, h⟩
      · rintro ⟨a', h, hf⟩
        cases h
        exact hf

theorem map_eq_ok {x : Except ε α} {f : α → β} {b : β} :
    x.map f = .ok b ↔ ∃ a, x = .ok a ∧ f a = b := by
  cases x with
  | error e =>
      constructor
      · intro h
        cases h
      · rintro ⟨a, h, -⟩
        cases h
  | ok a =>
      constructor
      · intro h
        exact ⟨a, rfl, Except.ok.inj h⟩
      · rintro ⟨a', h, hf⟩
        cases h
        rw [← hf]
        rfl

theorem ok_of_toOption {x : Except ε α} {a : α} (h : x.toOption = some a) : x = .ok a := by
  cases x with
  | error e => cases h
  | ok b => exact congrArg Except.ok (Option.some.inj h)

theorem mapM_eq_ok {f : α → Except ε β} {as : List α} {bs : List β} :
    as.mapM f = .ok bs ↔ List.Forall₂ (fun a b => f a = .ok b) as bs := by
  induction as generalizing bs with
  | nil =>
      rw [List.mapM_nil]
      constructor
      · intro h
        cases h
        exact List.Forall₂.nil
      · intro h
        cases h
        rfl
  | cons a rest ih =>
      rw [List.mapM_cons, bind_eq_ok]
      constructor
      · rintro ⟨b, hb, h⟩
        obtain ⟨others, hRest, hAll⟩ := bind_eq_ok.mp h
        cases hAll
        exact List.Forall₂.cons hb (ih.mp hRest)
      · intro h
        cases h with
        | cons hb hRest => exact ⟨_, hb, bind_eq_ok.mpr ⟨_, ih.mpr hRest, rfl⟩⟩

/-- Every result of a list of computations is the result of one of them. -/
theorem mem_of_mapM {f : α → Except ε β} {as : List α} {bs : List β} {b : β}
    (h : as.mapM f = .ok bs) (hb : b ∈ bs) : ∃ a ∈ as, f a = .ok b := by
  induction mapM_eq_ok.mp h with
  | nil => exact absurd hb List.not_mem_nil
  | cons hFirst hRest ih =>
      rcases List.mem_cons.mp hb with rfl | hb
      · exact ⟨_, List.mem_cons_self, hFirst⟩
      · obtain ⟨a, ha, hOk⟩ := ih (mapM_eq_ok.mpr hRest) hb
        exact ⟨a, List.mem_cons_of_mem _ ha, hOk⟩

theorem exists_of_mapM {f : α → Except ε β} {as : List α} {bs : List β} {a : α}
    (h : as.mapM f = .ok bs) (ha : a ∈ as) : ∃ b ∈ bs, f a = .ok b := by
  induction mapM_eq_ok.mp h with
  | nil => exact absurd ha List.not_mem_nil
  | cons hFirst hRest ih =>
      rcases List.mem_cons.mp ha with rfl | ha
      · exact ⟨_, List.mem_cons_self, hFirst⟩
      · obtain ⟨b, hb, hOk⟩ := ih (mapM_eq_ok.mpr hRest) ha
        exact ⟨b, List.mem_cons_of_mem _ hb, hOk⟩

/-- A list of computations comes to a result if each of them does. -/
theorem mapM_total {f : α → Except ε β} {as : List α} (h : ∀ a ∈ as, ∃ b, f a = .ok b) :
    ∃ bs, as.mapM f = .ok bs := by
  induction as with
  | nil => exact ⟨[], by rw [List.mapM_nil]; rfl⟩
  | cons a rest ih =>
      obtain ⟨⟨b, hb⟩, hRest⟩ := List.forall_mem_cons.mp h
      obtain ⟨bs, hbs⟩ := ih hRest
      exact ⟨b :: bs, by rw [List.mapM_cons, hb, hbs]; rfl⟩

/-- If each member of a list has a counterpart, there is a list of counterparts. -/
theorem exists_forall₂ {R : α → β → Prop} {P : β → Prop} {as : List α}
    (h : ∀ a ∈ as, ∃ b, R a b ∧ P b) : ∃ bs, List.Forall₂ R as bs ∧ ∀ b ∈ bs, P b := by
  induction as with
  | nil => exact ⟨[], List.Forall₂.nil, List.forall_mem_nil _⟩
  | cons a rest ih =>
      obtain ⟨⟨b, hb, hP⟩, hRest⟩ := List.forall_mem_cons.mp h
      obtain ⟨bs, hbs, hAll⟩ := ih hRest
      exact ⟨b :: bs, List.Forall₂.cons hb hbs, List.forall_mem_cons.mpr ⟨hP, hAll⟩⟩

/-- What each step of a fold keeps, the fold keeps. -/
theorem foldlM_keeps {step : β → α → Except ε β} (P : β → Prop)
    (hStep : ∀ b a b', P b → step b a = .ok b' → P b') {as : List α} {b b' : β} (hb : P b)
    (h : as.foldlM step b = .ok b') : P b' := by
  induction as generalizing b with
  | nil =>
      cases h
      exact hb
  | cons a rest ih =>
      rw [List.foldlM_cons] at h
      obtain ⟨next, hNext, hRest⟩ := bind_eq_ok.mp h
      exact ih (hStep b a next hb hNext) hRest

/-- A fold that fails does so at one of its steps, and not at those before it. -/
theorem foldlM_error {step : β → α → Except ε β} {as : List α} {b : β} {e : ε}
    (h : as.foldlM step b = .error e) :
    ∃ front a rest b', as = front ++ a :: rest ∧ front.foldlM step b = .ok b' ∧
      step b' a = .error e := by
  induction as generalizing b with
  | nil => cases h
  | cons a rest ih =>
      rw [List.foldlM_cons] at h
      cases hStep : step b a with
      | error e' =>
          rw [hStep] at h
          cases h
          exact ⟨[], a, rest, b, rfl, rfl, hStep⟩
      | ok next =>
          rw [hStep] at h
          obtain ⟨front, a', rest', b', rfl, hFront, hError⟩ := ih h
          refine ⟨a :: front, a', rest', b', rfl, ?_, hError⟩
          rw [List.foldlM_cons, hStep]
          exact hFront

/-! ## Failures -/

/-- Whatever the computation fails with has a property. -/
def FailsWith (P : ε → Prop) (x : Except ε α) : Prop := ∀ e, x = .error e → P e

variable {P : ε → Prop}

theorem failsWith_ok (a : α) : FailsWith P (.ok a) := nofun

theorem failsWith_mono {Q : ε → Prop} {x : Except ε α} (h : FailsWith P x) (hPQ : ∀ e, P e → Q e) :
    FailsWith Q x :=
  fun e he => hPQ e (h e he)

theorem failsWith_of_total {x : Except ε α} (h : ∃ a, x = .ok a) : FailsWith P x := by
  obtain ⟨a, rfl⟩ := h
  exact failsWith_ok a

theorem failsWith_error {e : ε} (h : P e) : FailsWith P (.error e : Except ε α) := by
  intro e' he
  cases he
  exact h

theorem failsWith_bind {x : Except ε α} {f : α → Except ε β} (hx : FailsWith P x)
    (hf : ∀ a, x = .ok a → FailsWith P (f a)) : FailsWith P (x >>= f) := by
  cases x with
  | error e => exact failsWith_error (hx e rfl)
  | ok a => exact hf a rfl

theorem failsWith_map {x : Except ε α} (f : α → β) (hx : FailsWith P x) :
    FailsWith P (x.map f) := by
  cases x with
  | error e => exact failsWith_error (hx e rfl)
  | ok a => exact failsWith_ok (f a)

theorem failsWith_mapM {f : α → Except ε β} {as : List α} (h : ∀ a ∈ as, FailsWith P (f a)) :
    FailsWith P (as.mapM f) := by
  induction as with
  | nil => exact failsWith_ok []
  | cons a rest ih =>
      obtain ⟨hFirst, hRest⟩ := List.forall_mem_cons.mp h
      rw [List.mapM_cons]
      exact failsWith_bind hFirst fun b _ => failsWith_bind (ih hRest) fun bs _ => failsWith_ok _

end CommBindings
