import CommBindings.Contract.Schema
import Mathlib

set_option autoImplicit false

/-! # Sorted texts

Texts in sorted order, each once, are told apart by their members alone (`sortedTexts_congr`).
-/

namespace CommBindings

theorem eraseDups_sublist (texts : List String) : texts.eraseDups.Sublist texts := by
  cases texts with
  | nil => exact List.Sublist.refl _
  | cons first rest =>
      rw [List.eraseDups_cons]
      exact ((eraseDups_sublist _).trans List.filter_sublist).cons_cons first
termination_by texts.length
decreasing_by exact Nat.lt_succ_of_le (List.length_filter_le _ _)

theorem nodup_eraseDups (texts : List String) : texts.eraseDups.Nodup := by
  cases texts with
  | nil => exact List.nodup_nil
  | cons first rest =>
      rw [List.eraseDups_cons, List.nodup_cons]
      refine ⟨?_, nodup_eraseDups _⟩
      intro hAgain
      simp at hAgain
termination_by texts.length
decreasing_by exact Nat.lt_succ_of_le (List.length_filter_le _ _)

theorem mem_sortedTexts {texts : List String} {text : String} :
    text ∈ Schema.sortedTexts texts ↔ text ∈ texts := by
  rw [Schema.sortedTexts, List.mem_eraseDups, List.mem_mergeSort]

/-- A sort by names puts them in order. -/
theorem sorted_mergeSort {α : Type} (name : α → String) (entries : List α) :
    ((entries.mergeSort fun a b => decide (name a ≤ name b)).map name).Pairwise (· ≤ ·) := by
  rw [List.pairwise_map]
  refine (List.pairwise_mergeSort ?_ ?_ entries).imp fun h => of_decide_eq_true h
  · intro a b c hab hbc
    exact decide_eq_true (String.le_trans (of_decide_eq_true hab) (of_decide_eq_true hbc))
  · intro a b
    rw [Bool.or_eq_true, decide_eq_true_eq, decide_eq_true_eq]
    exact String.le_total (name a) (name b)

theorem sortedTexts_sorted (texts : List String) :
    (Schema.sortedTexts texts).Pairwise (· ≤ ·) := by
  have hOrder := sorted_mergeSort id texts
  rw [List.map_id] at hOrder
  exact hOrder.sublist (eraseDups_sublist _)

/-- Two selections from sorted texts are equal if they have the same members. -/
theorem filter_sortedTexts_congr {p : String → Bool} {texts others : List String}
    (h : ∀ text, p text = true →
      (text ∈ Schema.sortedTexts texts ↔ text ∈ Schema.sortedTexts others)) :
    (Schema.sortedTexts texts).filter p = (Schema.sortedTexts others).filter p := by
  have hPerm : ((Schema.sortedTexts texts).filter p).Perm
      ((Schema.sortedTexts others).filter p) := by
    apply (List.perm_ext_iff_of_nodup ((nodup_eraseDups _).filter _)
      ((nodup_eraseDups _).filter _)).mpr
    intro text
    rw [List.mem_filter, List.mem_filter]
    exact and_congr_left (h text)
  exact hPerm.eq_of_pairwise (fun a b _ _ => String.le_antisymm)
    ((sortedTexts_sorted texts).filter _) ((sortedTexts_sorted others).filter _)

theorem sortedTexts_congr {texts others : List String}
    (h : ∀ text, text ∈ Schema.sortedTexts texts ↔ text ∈ Schema.sortedTexts others) :
    Schema.sortedTexts texts = Schema.sortedTexts others := by
  have hAll := filter_sortedTexts_congr (p := fun _ => true) fun text _ => h text
  rwa [List.filter_true, List.filter_true] at hAll

end CommBindings
