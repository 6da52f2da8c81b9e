import CommBindings.Workspace.Outputs
import Mathlib

set_option autoImplicit false

/-! # The contents of a workspace

Two views of a workspace: which directories it has (`HasDirectory`) and what its files hold
(`file?`). A path leads to one place in every workspace in which it can be walked at all
(`Path.place`, `walk_place`), and it can be walked where its directories are (`walk_mono`). A path
is *open* if a file stands where it leads, or could be written there; the operations on single
files are described by what they do to the views at an open path.
-/

namespace CommBindings

namespace Path

/-- The place under a place to which one name leads. -/
def descend (place : Place) (name : String) : Place :=
  if name = "" then place else if name = ".." then place.dropLast else place ++ [name]

/-- The place to which a path leads where it can be walked. -/
def place (p : Path) : Place := flatten p.names

theorem place_eq_foldl (p : Path) : p.place = p.names.foldl descend [] := rfl

theorem descend_name {place : Place} {name : String} (hEmpty : name ≠ "") (hUp : name ≠ "..") :
    descend place name = place ++ [name] := by
  rw [descend, if_neg hEmpty, if_neg hUp]

theorem descend_up (place : Place) : descend place ".." = place.dropLast := rfl

/-- A path with names in front of its last one leads to that name's place below them. -/
theorem place_snoc (names : List String) (name : String) :
    place ⟨names ++ [name]⟩ = descend (place ⟨names⟩) name := by
  rw [place_eq_foldl, place_eq_foldl, List.foldl_append]
  rfl

theorem place_child (p : Path) {name : String} (hEmpty : name ≠ "") (hUp : name ≠ "..") :
    (p.child name).place = p.place ++ [name] := by
  rw [child, place_snoc, descend_name hEmpty hUp]

/-- A path with a last name is the path of its directory with this name. -/
theorem names_eq_of_name {p : Path} (hName : p.name ≠ "") :
    p.names = p.names.dropLast ++ [p.name] := by
  have hNonempty : p.names ≠ [] := by
    intro h
    rw [name, h] at hName
    exact hName rfl
  have hLast : p.name = p.names.getLast hNonempty := by
    rw [name, List.getLast?_eq_some_getLast hNonempty, Option.getD_some]
  rw [hLast, List.dropLast_append_getLast]

theorem place_of_unnamed {p : Path} (hName : p.name = "") :
    p.place = place ⟨p.names.dropLast⟩ := by
  obtain ⟨names⟩ := p
  rcases List.eq_nil_or_concat names with rfl | ⟨front, last, rfl⟩
  · rfl
  · rw [name, List.concat_eq_append, List.getLast?_concat, Option.getD_some] at hName
    rw [List.concat_eq_append, place_snoc, hName, List.dropLast_concat]
    rfl

theorem place_of_name {p : Path} (hName : p.name ≠ "") :
    p.place = descend (place ⟨p.names.dropLast⟩) p.name := by
  rw [← place_snoc, ← names_eq_of_name hName]

end Path

namespace Workspace

/-- Whether a directory stands at a place. -/
def HasDirectory (w : Workspace) (place : Place) : Prop := w.entry? place = some .directory

/-- The content of the file at a place, if a file stands there. -/
def file? (w : Workspace) (place : Place) : Option ByteArray :=
  match w.entry? place with
  | some (.file content) => some content
  | _ => none

theorem hasDirectory_root (w : Workspace) : w.HasDirectory [] := by
  unfold HasDirectory entry?
  rw [if_pos rfl]

theorem file?_eq_some_iff {w : Workspace} {place : Place} {content : ByteArray} :
    w.file? place = some content ↔ w.entry? place = some (.file content) := by
  rw [file?]
  split
  · next h => rw [h, Option.some.injEq, Option.some.injEq, Entry.file.injEq]
  · next h =>
    constructor
    · intro hNone
      cases hNone
    · intro hFile
      exact absurd hFile (h content)

theorem file?_of_directory {w : Workspace} {place : Place} (h : w.HasDirectory place) :
    w.file? place = none := by
  rw [file?, h]

theorem file?_of_none {w : Workspace} {place : Place} (h : w.entry? place = none) :
    w.file? place = none := by
  rw [file?, h]

theorem file?_congr {w w' : Workspace} {place : Place} (h : w'.entry? place = w.entry? place) :
    w'.file? place = w.file? place := by
  rw [file?, file?, h]

/-- Where no directory stands, the file says all. -/
theorem entry?_of_not_directory {w : Workspace} {place : Place} (h : ¬ w.HasDirectory place) :
    w.entry? place = (w.file? place).map Entry.file := by
  cases hEntry : w.entry? place with
  | none => rw [file?_of_none hEntry]; rfl
  | some entry =>
      cases entry with
      | directory => exact absurd hEntry h
      | file content => rw [file?_eq_some_iff.mpr hEntry]; rfl

/-! ## Putting and erasing -/

theorem lookup_replace (entries : List (Place × Entry)) (place q : Place) (entry : Entry) :
    (entries.map fun old => if old.1 = place then (place, entry) else old).lookup q =
      if q = place then (entries.lookup place).map fun _ => entry else entries.lookup q := by
  induction entries with
  | nil => simp
  | cons old rest ih =>
      obtain ⟨key, value⟩ := old
      rw [List.map_cons]
      by_cases hKey : key = place
      · subst hKey
        by_cases hq : q = key
        · simp [hq]
        · have hne : (q == key) = false := by simp [hq]
          simp only [if_true, List.lookup_cons, hne, hq, if_false] at ih ⊢
          exact ih
      · by_cases hq : q = key
        · subst hq
          simp [hKey]
        · have hne : (q == key) = false := by simp [hq]
          have hne' : (place == key) = false := by simp [Ne.symm hKey]
          simp only [hKey, if_false, List.lookup_cons, hne, hne']
          exact ih

theorem lookup_filter_ne (entries : List (Place × Entry)) (place q : Place) :
    (entries.filter fun old => old.1 ≠ place).lookup q =
      if q = place then none else entries.lookup q := by
  induction entries with
  | nil => simp
  | cons old rest ih =>
      obtain ⟨key, value⟩ := old
      by_cases hKey : key = place
      · subst hKey
        by_cases hq : q = key
        · subst hq
          simpa using ih
        · have hne : (q == key) = false := by simp [hq]
          simpa [List.lookup_cons, hne, hq] using ih
      · by_cases hq : q = key
        · subst hq
          simp [hKey]
        · have hne : (q == key) = false := by simp [hq]
          simpa [List.lookup_cons, hne, hKey] using ih

theorem lookup_append_single (entries : List (Place × Entry)) (place q : Place) (entry : Entry)
    (hNew : entries.lookup place = none) :
    (entries ++ [(place, entry)]).lookup q =
      if q = place then some entry else entries.lookup q := by
  rw [List.lookup_append]
  by_cases hq : q = place
  · subst hq
    simp [hNew]
  · have hne : (q == place) = false := by simp [hq]
    simp [List.lookup_cons, hne, hq]

theorem entry?_put (w : Workspace) {place : Place} (hRoot : place ≠ []) (q : Place)
    (entry : Entry) :
    entry? (w.put place entry) q = if q = place then some entry else w.entry? q := by
  -- the root is no entry of its own, so it is told apart first
  by_cases hq : q = []
  · subst hq
    rw [if_neg (Ne.symm hRoot)]
    rfl
  · unfold entry? put
    rw [if_neg hq, if_neg hq]
    split
    · next hOld =>
      obtain ⟨old, hOld⟩ := Option.isSome_iff_exists.mp hOld
      rw [lookup_replace, hOld]
      rfl
    · next hNew =>
      exact lookup_append_single _ _ _ _ (Option.not_isSome_iff_eq_none.mp hNew)

theorem entry?_erase (w : Workspace) {place : Place} (hRoot : place ≠ []) (q : Place) :
    entry? (w.erase place) q = if q = place then none else w.entry? q := by
  by_cases hq : q = []
  · subst hq
    rw [if_neg (Ne.symm hRoot)]
    rfl
  · unfold entry? erase
    rw [if_neg hq, if_neg hq]
    exact lookup_filter_ne _ _ _

/-- Erasing where nothing stands changes nothing. -/
theorem erase_of_none {w : Workspace} {place : Place} (h : w.entry? place = none) :
    w.erase place = w := by
  have hLookup : w.entries.lookup place = none := by
    unfold entry? at h
    split at h
    · cases h
    · exact h
  have hKept : ∀ old ∈ w.entries, decide (old.1 ≠ place) = true := by
    intro old hOld
    have hne : (place != old.1) = true := List.lookup_eq_none_iff.mp hLookup old hOld
    exact decide_eq_true (Ne.symm (bne_iff_ne.mp hne))
  rw [erase, List.filter_eq_self.mpr hKept]

end Workspace

end CommBindings
