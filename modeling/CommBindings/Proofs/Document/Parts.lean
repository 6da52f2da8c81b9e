import CommBindings.Contract.Schema
import Mathlib

set_option autoImplicit false

/-! # What holds of all parts of a document

A property of scalars and one of mappings, asked of everything inside a value (`Value.every`). What
holds inside a mapping in this sense holds inside the value under any key of it. Three such properties
matter: that all keys are texts (`Value.hasTextKeys`), that no integer has too many digits to be shown
(`Value.isShort`), and both of them (`Value.isPlain`). A value of the second kind always has a text
(`display_of_isShort`).
-/

namespace CommBindings

/-- Whether the scalar is a text. -/
def Scalar.isText : Scalar → Bool
  | text _ => true
  | _ => false

/-- Whether the scalar has a text, which only an integer with too many digits has not. -/
def Scalar.isShort : Scalar → Bool
  | int n => (integerText? n).isSome
  | _ => true

/-- Whether all keys of the mapping are texts. -/
def Mapping.hasTextKeys (m : Mapping) : Bool := m.all fun entry => entry.1.isText

/-- Whether all keys of the mapping have texts. -/
def Mapping.hasShortKeys (m : Mapping) : Bool := m.all fun entry => entry.1.isShort

namespace Value

mutual

/-- Whether all scalars but keys and all mappings inside the value have a property each. -/
def every (ofScalar : Scalar → Bool) (ofMapping : Mapping → Bool) : Value → Bool
  | scalar s => ofScalar s
  | list items _ => everyItem ofScalar ofMapping items
  | pair first second _ => first.every ofScalar ofMapping && second.every ofScalar ofMapping
  | set members => members.all ofScalar
  | mapping entries _ => ofMapping entries && everyEntry ofScalar ofMapping entries

/-- Whether the properties are those of everything inside the items of a list. -/
def everyItem (ofScalar : Scalar → Bool) (ofMapping : Mapping → Bool) : List Value → Bool
  | [] => true
  | item :: rest => item.every ofScalar ofMapping && everyItem ofScalar ofMapping rest

/-- Whether the properties are those of everything inside the values of a mapping. -/
def everyEntry (ofScalar : Scalar → Bool) (ofMapping : Mapping → Bool) :
    List (Key × Value) → Bool
  | [] => true
  | (_, value) :: rest => value.every ofScalar ofMapping && everyEntry ofScalar ofMapping rest

end

/-- Whether all mappings inside the value have texts for keys. -/
def hasTextKeys (value : Value) : Bool := value.every (fun _ => true) Mapping.hasTextKeys

/-- Whether no integer in the value is too long, those in keys included. -/
def isShort (value : Value) : Bool := value.every Scalar.isShort Mapping.hasShortKeys

/-- Whether all mappings inside the value have texts for keys, and no integer in it is too long. -/
def isPlain (value : Value) : Bool := value.every Scalar.isShort Mapping.hasTextKeys

variable {ofScalar : Scalar → Bool} {ofMapping : Mapping → Bool}

theorem everyItem_iff {items : List Value} : everyItem ofScalar ofMapping items = true ↔
    ∀ item ∈ items, item.every ofScalar ofMapping = true := by
  induction items with
  | nil => simp [everyItem]
  | cons item rest ih => rw [everyItem, Bool.and_eq_true, ih, List.forall_mem_cons]

theorem everyEntry_iff {entries : List (Key × Value)} :
    everyEntry ofScalar ofMapping entries = true ↔
      ∀ entry ∈ entries, entry.2.every ofScalar ofMapping = true := by
  induction entries with
  | nil => simp [everyEntry]
  | cons entry rest ih => rw [everyEntry, Bool.and_eq_true, ih, List.forall_mem_cons]

mutual

/-- Properties that follow from others hold inside a value as well. That of a mapping may follow from
what the others say of everything inside it. -/
theorem every_mono {ofScalar' : Scalar → Bool} {ofMapping' : Mapping → Bool}
    (hScalar : ∀ s, ofScalar s = true → ofScalar' s = true)
    (hMapping : ∀ m, ofMapping m = true → everyEntry ofScalar ofMapping m = true →
      ofMapping' m = true)
    (value : Value) (h : value.every ofScalar ofMapping = true) :
    value.every ofScalar' ofMapping' = true := by
  match value with
  | scalar s =>
    rw [every] at h ⊢
    exact hScalar s h
  | list items mark =>
    rw [every] at h ⊢
    exact everyItem_mono hScalar hMapping items h
  | pair first second mark =>
    rw [every, Bool.and_eq_true] at h ⊢
    exact ⟨every_mono hScalar hMapping first h.1, every_mono hScalar hMapping second h.2⟩
  | set members =>
    rw [every, List.all_eq_true] at h ⊢
    exact fun s hs => hScalar s (h s hs)
  | mapping entries mark =>
    rw [every, Bool.and_eq_true] at h ⊢
    exact ⟨hMapping entries h.1 h.2, everyEntry_mono hScalar hMapping entries h.2⟩

theorem everyItem_mono {ofScalar' : Scalar → Bool} {ofMapping' : Mapping → Bool}
    (hScalar : ∀ s, ofScalar s = true → ofScalar' s = true)
    (hMapping : ∀ m, ofMapping m = true → everyEntry ofScalar ofMapping m = true →
      ofMapping' m = true)
    (items : List Value) (h : everyItem ofScalar ofMapping items = true) :
    everyItem ofScalar' ofMapping' items = true := by
  match items with
  | [] => rw [everyItem]
  | item :: rest =>
    rw [everyItem, Bool.and_eq_true] at h ⊢
    exact ⟨every_mono hScalar hMapping item h.1, everyItem_mono hScalar hMapping rest h.2⟩

theorem everyEntry_mono {ofScalar' : Scalar → Bool} {ofMapping' : Mapping → Bool}
    (hScalar : ∀ s, ofScalar s = true → ofScalar' s = true)
    (hMapping : ∀ m, ofMapping m = true → everyEntry ofScalar ofMapping m = true →
      ofMapping' m = true)
    (entries : List (Key × Value)) (h : everyEntry ofScalar ofMapping entries = true) :
    everyEntry ofScalar' ofMapping' entries = true := by
  match entries with
  | [] => rw [everyEntry]
  | (key, value) :: rest =>
    rw [everyEntry, Bool.and_eq_true] at h ⊢
    exact ⟨every_mono hScalar hMapping value h.1, everyEntry_mono hScalar hMapping rest h.2⟩

end

/-! ## Inside mappings and lists -/

theorem every_of_get? {entries : Mapping} {key : String} {value : Value}
    (hEvery : everyEntry ofScalar ofMapping entries = true)
    (h : entries.get? key = some value) : value.every ofScalar ofMapping = true := by
  obtain ⟨entry, hFind, hValue⟩ := Option.map_eq_some_iff.mp h
  rw [← hValue]
  exact everyEntry_iff.mp hEvery entry (List.mem_of_find?_eq_some hFind)

theorem entries?_eq_some_iff {value : Value} {entries : Mapping} :
    value.entries? = some entries ↔ ∃ mark, value = .mapping entries mark := by
  constructor
  · intro h
    cases value with
    | mapping found mark =>
        cases h
        exact ⟨mark, rfl⟩
    | scalar _ => cases h
    | list _ _ => cases h
    | pair _ _ _ => cases h
    | set _ => cases h
  · rintro ⟨mark, rfl⟩
    rfl

theorem items?_eq_some_iff {value : Value} {items : List Value} :
    value.items? = some items ↔ ∃ mark, value = .list items mark := by
  constructor
  · intro h
    cases value with
    | list found mark =>
        cases h
        exact ⟨mark, rfl⟩
    | scalar _ => cases h
    | mapping _ _ => cases h
    | pair _ _ _ => cases h
    | set _ => cases h
  · rintro ⟨mark, rfl⟩
    rfl

theorem every_of_entries? {value : Value} {entries : Mapping}
    (hEvery : value.every ofScalar ofMapping = true) (h : value.entries? = some entries) :
    ofMapping entries = true ∧ everyEntry ofScalar ofMapping entries = true := by
  obtain ⟨mark, rfl⟩ := entries?_eq_some_iff.mp h
  rwa [every, Bool.and_eq_true] at hEvery

theorem every_of_items? {value : Value} {items : List Value}
    (hEvery : value.every ofScalar ofMapping = true) (h : value.items? = some items) :
    ∀ item ∈ items, item.every ofScalar ofMapping = true := by
  obtain ⟨mark, rfl⟩ := items?_eq_some_iff.mp h
  rw [every] at hEvery
  exact everyItem_iff.mp hEvery

/-- Where entries are optional there are none, or a mapping has them. -/
theorem optionalEntries?_some {value : Option Value} {entries : Mapping}
    (h : Schema.optionalEntries? value = some entries) :
    entries = [] ∨ ∃ v, value = some v ∧ v.entries? = some entries := by
  unfold Schema.optionalEntries? at h
  split at h
  · cases h
    exact Or.inl rfl
  · cases h
    exact Or.inr ⟨_, rfl, rfl⟩
  · split at h
    · cases h
      exact Or.inl rfl
    · cases h

/-- Where items are optional there are none, or a list has them. -/
theorem optionalItems?_some {value : Option Value} {items : List Value}
    (h : Schema.optionalItems? value = some items) :
    items = [] ∨ ∃ v, value = some v ∧ v.items? = some items := by
  unfold Schema.optionalItems? at h
  split at h
  · cases h
    exact Or.inl rfl
  · cases h
    exact Or.inr ⟨_, rfl, rfl⟩
  · split at h
    · cases h
      exact Or.inl rfl
    · cases h

theorem every_of_optionalEntries? {value : Option Value} {entries : Mapping}
    (hEvery : ∀ v, value = some v → v.every ofScalar ofMapping = true)
    (h : Schema.optionalEntries? value = some entries) :
    everyEntry ofScalar ofMapping entries = true := by
  rcases optionalEntries?_some h with rfl | ⟨v, hv, hEntries⟩
  · rw [everyEntry]
  · exact (every_of_entries? (hEvery v hv) hEntries).2

theorem every_of_optionalItems? {value : Option Value} {items : List Value}
    (hEvery : ∀ v, value = some v → v.every ofScalar ofMapping = true)
    (h : Schema.optionalItems? value = some items) :
    ∀ item ∈ items, item.every ofScalar ofMapping = true := by
  rcases optionalItems?_some h with rfl | ⟨v, hv, hItems⟩
  · exact List.forall_mem_nil _
  · exact every_of_items? (hEvery v hv) hItems

theorem hasTextKeys_of_optionalEntries? {value : Option Value} {entries : Mapping}
    (hEvery : ∀ v, value = some v → v.every ofScalar Mapping.hasTextKeys = true)
    (h : Schema.optionalEntries? value = some entries) : entries.hasTextKeys = true := by
  rcases optionalEntries?_some h with rfl | ⟨v, hv, hEntries⟩
  · rfl
  · exact (every_of_entries? (hEvery v hv) hEntries).1

theorem every_insertEntry {entries : Mapping} {key : Key} {value : Value}
    (hKeys : entries.hasTextKeys = true) (h : everyEntry ofScalar ofMapping entries = true)
    (hKey : key.isText = true) (hValue : value.every ofScalar ofMapping = true) :
    Mapping.hasTextKeys (insertEntry entries key value) = true ∧
      everyEntry ofScalar ofMapping (insertEntry entries key value) = true := by
  induction entries with
  | nil =>
      rw [insertEntry, everyEntry, hValue, everyEntry, Mapping.hasTextKeys, List.all_cons, hKey]
      exact ⟨rfl, rfl⟩
  | cons entry rest ih =>
      rw [Mapping.hasTextKeys, List.all_cons, Bool.and_eq_true] at hKeys
      rw [everyEntry, Bool.and_eq_true] at h
      obtain ⟨hKeysRest, hRest⟩ := ih hKeys.2 h.2
      rw [insertEntry]
      split
      · rw [Mapping.hasTextKeys, List.all_cons, everyEntry, Bool.and_eq_true, Bool.and_eq_true]
        exact ⟨hKeys, hValue, h.2⟩
      · rw [Mapping.hasTextKeys, List.all_cons, everyEntry, Bool.and_eq_true, Bool.and_eq_true]
        exact ⟨⟨hKeys.1, hKeysRest⟩, h.1, hRest⟩

theorem every_dedupEntries {entries : Mapping} (hKeys : entries.hasTextKeys = true)
    (h : everyEntry ofScalar ofMapping entries = true) :
    Mapping.hasTextKeys (dedupEntries entries) = true ∧
      everyEntry ofScalar ofMapping (dedupEntries entries) = true := by
  have hFold : ∀ done : Mapping,
      done.hasTextKeys = true ∧ everyEntry ofScalar ofMapping done = true →
        Mapping.hasTextKeys
            (entries.foldl (fun done entry => insertEntry done entry.1 entry.2) done) = true ∧
          everyEntry ofScalar ofMapping
            (entries.foldl (fun done entry => insertEntry done entry.1 entry.2) done) = true := by
    induction entries with
    | nil => exact fun done hDone => hDone
    | cons entry rest ih =>
        rw [Mapping.hasTextKeys, List.all_cons, Bool.and_eq_true] at hKeys
        rw [everyEntry, Bool.and_eq_true] at h
        exact fun done hDone =>
          ih hKeys.2 h.2 _ (every_insertEntry hDone.1 hDone.2 hKeys.1 h.1)
  exact hFold [] ⟨rfl, by rw [everyEntry]⟩

/-! ## Values without long integers have texts -/

theorem isShort_of_isText {key : Key} (h : key.isText = true) : key.isShort = true := by
  cases key with
  | text name => rfl
  | _ => cases h

theorem shown_of_isShort {s : Scalar} (h : s.isShort = true) : s.shown?.isSome = true := by
  cases s with
  | int n => exact h
  | _ => rfl

theorem display_of_isShortScalar {s : Scalar} (h : s.isShort = true) :
    s.display?.isSome = true := by
  cases s with
  | int n => exact h
  | _ => rfl

theorem shown_of_all_isShort {members : List Scalar} (h : members.all Scalar.isShort = true) :
    (members.mapM Scalar.shown?).isSome = true := by
  induction members with
  | nil => rfl
  | cons s rest ih =>
      rw [List.all_cons, Bool.and_eq_true] at h
      obtain ⟨shown, hShown⟩ := Option.isSome_iff_exists.mp (shown_of_isShort h.1)
      obtain ⟨others, hOthers⟩ := Option.isSome_iff_exists.mp (ih h.2)
      simp [List.mapM_cons, hShown, hOthers]

mutual

theorem shownWithin_of_isShort (outer : List Mark) (value : Value) (h : value.isShort = true) :
    (value.shownWithin? outer).isSome = true := by
  match value with
  | scalar s =>
    rw [isShort, every] at h
    rw [shownWithin?]
    exact shown_of_isShort h
  | list items mark =>
    rw [isShort, every] at h
    rw [shownWithin?]
    split
    · rfl
    · rw [Option.isSome_map]
      exact shownItems_of_isShort _ items h
  | pair first second mark =>
    rw [isShort, every, Bool.and_eq_true] at h
    rw [shownWithin?]
    split
    · rfl
    · obtain ⟨a, ha⟩ := Option.isSome_iff_exists.mp
        (shownWithin_of_isShort (mark.toList ++ outer) first h.1)
      obtain ⟨b, hb⟩ := Option.isSome_iff_exists.mp
        (shownWithin_of_isShort (mark.toList ++ outer) second h.2)
      rw [ha, Option.bind_some, hb]
      rfl
  | set members =>
    rw [isShort, every] at h
    rw [shownWithin?]
    split
    · rfl
    · rw [Option.isSome_map]
      exact shown_of_all_isShort h
  | mapping entries mark =>
    rw [isShort, every, Bool.and_eq_true] at h
    rw [shownWithin?]
    split
    · rfl
    · rw [Option.isSome_map]
      exact shownEntries_of_isShort _ entries h.1 h.2

theorem shownItems_of_isShort (outer : List Mark) (items : List Value)
    (h : everyItem Scalar.isShort Mapping.hasShortKeys items = true) :
    (shownItems? outer items).isSome = true := by
  match items with
  | [] =>
    rw [shownItems?]
    rfl
  | item :: rest =>
    rw [everyItem, Bool.and_eq_true] at h
    obtain ⟨part, hPart⟩ := Option.isSome_iff_exists.mp (shownWithin_of_isShort outer item h.1)
    rw [shownItems?, hPart, Option.bind_some, Option.isSome_map]
    exact shownItems_of_isShort outer rest h.2

theorem shownEntries_of_isShort (outer : List Mark) (entries : List (Key × Value))
    (hKeys : Mapping.hasShortKeys entries = true)
    (h : everyEntry Scalar.isShort Mapping.hasShortKeys entries = true) :
    (shownEntries? outer entries).isSome = true := by
  match entries with
  | [] =>
    rw [shownEntries?]
    rfl
  | (key, value) :: rest =>
    rw [Mapping.hasShortKeys, List.all_cons, Bool.and_eq_true] at hKeys
    rw [everyEntry, Bool.and_eq_true] at h
    obtain ⟨k, hk⟩ := Option.isSome_iff_exists.mp (shown_of_isShort hKeys.1)
    obtain ⟨v, hv⟩ := Option.isSome_iff_exists.mp (shownWithin_of_isShort outer value h.1)
    rw [shownEntries?, hk, Option.bind_some, hv, Option.bind_some, Option.isSome_map]
    exact shownEntries_of_isShort outer rest hKeys.2 h.2

end

/-- A value without long integers has a text. -/
theorem display_of_isShort {value : Value} (h : value.isShort = true) :
    value.display?.isSome = true := by
  cases value with
  | scalar s =>
      rw [isShort, every] at h
      exact display_of_isShortScalar h
  | list items mark => exact shownWithin_of_isShort [] _ h
  | pair first second mark => exact shownWithin_of_isShort [] _ h
  | set members => exact shownWithin_of_isShort [] _ h
  | mapping entries mark => exact shownWithin_of_isShort [] _ h

/-- A plain value has a text. -/
theorem display_of_isPlain {value : Value} (h : value.isPlain = true) :
    value.display?.isSome = true := by
  refine display_of_isShort (every_mono (fun _ hs => hs) (fun m hm _ => ?_) value h)
  exact List.all_eq_true.mpr fun entry hEntry =>
    isShort_of_isText (List.all_eq_true.mp hm entry hEntry)

end Value

end CommBindings
