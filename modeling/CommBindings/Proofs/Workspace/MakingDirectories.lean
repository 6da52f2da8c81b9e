import CommBindings.Proofs.Workspace.Directories
import CommBindings.Proofs.Workspace.Faults

set_option autoImplicit false

/-! # Making the directories on the way to a path

A directory can be made with those above it unless there is an obstacle on the way: a file, or a
name that is too long. Which one comes first depends on the files only (`firstObstacle?_congr`), but
how it is reported depends on the directories as well (`attempt_makeDirectories`): where some are
missing, the ones in front of the obstacle are made and the error names the obstacle; where all of
them are there, the error names the whole path. So a second attempt can fail with another error
than the first, and in a workspace with more directories an attempt fails as one of the two
(`makeDirectories_alike`).
-/

namespace CommBindings

namespace Path

/-- The paths on the way from the root to a path, with both of them. -/
def fronts (p : Path) : List Path := p.names.inits.map Path.mk

theorem mem_fronts {p front : Path} : front ∈ p.fronts ↔ front.names <+: p.names := by
  rw [fronts, List.mem_map]
  constructor
  · rintro ⟨names, hNames, rfl⟩
    exact (List.mem_inits names p.names).mp hNames
  · intro h
    exact ⟨front.names, (List.mem_inits front.names p.names).mpr h, rfl⟩

theorem self_mem_fronts (p : Path) : p ∈ p.fronts := mem_fronts.mpr (List.prefix_refl p.names)

theorem fronts_snoc (names : List String) (name : String) :
    fronts ⟨names ++ [name]⟩ = fronts ⟨names⟩ ++ [⟨names ++ [name]⟩] := by
  rw [fronts, fronts, List.inits_append, List.map_append]
  rfl

/-- The text of a path is no shorter than that of the directory it lies in. -/
theorem size_text_snoc (names : List String) (name : String) :
    (text ⟨names⟩).utf8ByteSize ≤ (text ⟨names ++ [name]⟩).utf8ByteSize := by
  have hSlash : "/".utf8ByteSize = 1 := rfl
  have hRoot : (text ⟨[]⟩).utf8ByteSize = 1 := rfl
  have hDouble : (text ⟨doubleRoot⟩).utf8ByteSize = 2 := rfl
  by_cases hNil : names = []
  · -- the text of every path starts with a slash
    subst hNil
    rw [hRoot, text]
    split
    · decide
    · rw [String.utf8ByteSize_append, hSlash]
      omega
  · have hLong : names ++ [name] ≠ doubleRoot := by
      intro h
      have hLength := congrArg List.length h
      rw [List.length_append, List.length_singleton] at hLength
      have hPositive := List.length_pos_iff.mpr hNil
      have hOne : doubleRoot.length = 1 := rfl
      omega
    have hSize : (text ⟨names ++ [name]⟩).utf8ByteSize =
        1 + (("/".intercalate names).utf8ByteSize + 1 + name.utf8ByteSize) := by
      rw [text, if_neg hLong, String.utf8ByteSize_append,
        String.intercalate_append_of_ne_nil hNil (List.cons_ne_nil _ _),
        String.intercalate_singleton, String.utf8ByteSize_append, String.utf8ByteSize_append,
        hSlash]
    by_cases hDoubled : names = doubleRoot
    · rw [hSize, hDoubled, hDouble]
      omega
    · have hFront : (text ⟨names⟩).utf8ByteSize = 1 + ("/".intercalate names).utf8ByteSize := by
        rw [text, if_neg hDoubled, String.utf8ByteSize_append, hSlash]
      omega

/-- The path is one that can be walked where its directories are. -/
def IsUsable (p : Path) : Prop := p.holdsNul = false ∧ p.isTooLong = false

theorem isUsable_front {names : List String} {name : String} (h : IsUsable ⟨names ++ [name]⟩) :
    IsUsable ⟨names⟩ := by
  obtain ⟨hNul, hShort⟩ := h
  have hSize := size_text_snoc names name
  rw [holdsNul, List.any_append, Bool.or_eq_false_iff] at hNul
  rw [isTooLong, decide_eq_false_iff_not, not_le] at hShort
  refine ⟨hNul.1, ?_⟩
  rw [isTooLong, decide_eq_false_iff_not, not_le]
  omega

theorem name_snoc (names : List String) (last : String) : name ⟨names ++ [last]⟩ = last := by
  rw [name, List.getLast?_concat, Option.getD_some]

theorem parent_snoc {names : List String} {name : String} (h : names ++ [name] ≠ doubleRoot) :
    parent ⟨names ++ [name]⟩ = ⟨names⟩ := by
  rw [parent, if_neg h, List.dropLast_concat]

theorem parent_of_name {p : Path} (h : p.name ≠ "") : p.parent = ⟨p.names.dropLast⟩ := by
  have hLong : p.names ≠ doubleRoot := by
    intro hDouble
    rw [name, hDouble] at h
    exact h rfl
  rw [parent, if_neg hLong]

/-- A path with a last name is the entry of its directory with this name. -/
theorem child_parent {p : Path} (h : p.name ≠ "") : p.parent.child p.name = p := by
  rw [parent_of_name h, child, ← names_eq_of_name h]

end Path

namespace Workspace

/-! ## Walking in two workspaces -/

theorem walk_of_isUsable {p : Path} (h : p.IsUsable) (w : Workspace) :
    w.walk p = w.walkFrom [] p.names := by
  rw [walk, h.1, h.2, if_neg Bool.false_ne_true, if_neg Bool.false_ne_true]

theorem enter_of_directory {w : Workspace} {place : Place} (h : w.HasDirectory place)
    (name : String) : w.enter place name =
      if maxNameLength < name.utf8ByteSize then .error .nameTooLong
      else .ok (Path.descend place name) := by
  rw [enter, h, Path.descend]
  simp only
  split
  · rfl
  · split
    · rfl
    · split <;> rfl

theorem enter_of_file {w : Workspace} {place : Place} (h : (w.file? place).isSome = true)
    (name : String) : w.enter place name = .error .notDirectory := by
  obtain ⟨content, hContent⟩ := Option.isSome_iff_exists.mp h
  rw [enter, file?_eq_some_iff.mp hContent]

theorem enter_of_none {w : Workspace} {place : Place} (h : w.entry? place = none)
    (name : String) : w.enter place name = .error .missing := by
  rw [enter, h]

/-- A directory, a file or nothing stands at a place. -/
theorem entry_cases (w : Workspace) (place : Place) :
    w.HasDirectory place ∨ (w.file? place).isSome = true ∨ w.entry? place = none := by
  cases hEntry : w.entry? place with
  | none => exact Or.inr (Or.inr rfl)
  | some entry =>
      cases entry with
      | directory => exact Or.inl hEntry
      | file content =>
          rw [file?_eq_some_iff.mpr hEntry]
          exact Or.inr (Or.inl rfl)

theorem ne_root_of_none {w : Workspace} {place : Place} (h : w.entry? place = none) :
    place ≠ [] := by
  rintro rfl
  rw [w.hasDirectory_root] at h
  cases h

/-- Two workspaces have the same files on the way to a path. -/
def SameOnWay (w w' : Workspace) (p : Path) : Prop :=
  ∀ front ∈ p.fronts, w'.file? front.place = w.file? front.place

theorem SameOnWay.front {w w' : Workspace} {names : List String} {name : String}
    (h : SameOnWay w w' ⟨names ++ [name]⟩) : SameOnWay w w' ⟨names⟩ := by
  intro front hFront
  apply h front
  rw [Path.fronts_snoc]
  exact List.mem_append_left _ hFront

theorem sameOnWay_makeDirectories (w : Workspace) (made p : Path) :
    SameOnWay w (w.makeDirectories made).1 p :=
  fun front _ => (makeDirectories_grows w made).file? front.place

/-- Where two ways along the same files both meet with something, they meet with the same. -/
theorem walkFrom_congr {w w' : Workspace} {names : List String} (h : SameOnWay w w' ⟨names⟩)
    (hFound : w.walkFrom [] names ≠ .error .missing)
    (hFound' : w'.walkFrom [] names ≠ .error .missing) :
    w'.walkFrom [] names = w.walkFrom [] names := by
  induction names using List.reverseRecOn with
  | nil => rfl
  | append_singleton front name ih =>
      rw [walkFrom_append] at hFound hFound' ⊢
      rw [walkFrom_append]
      have hFront : w'.walkFrom [] front = w.walkFrom [] front := by
        apply ih h.front
        · intro hMissing
          rw [hMissing] at hFound
          exact hFound rfl
        · intro hMissing
          rw [hMissing] at hFound'
          exact hFound' rfl
      rw [hFront] at hFound' ⊢
      cases hWalk : w.walkFrom [] front with
      | error cause => rfl
      | ok q =>
          rw [hWalk] at hFound hFound'
          simp only [Except.bind] at hFound hFound' ⊢
          have hFile : w'.file? q = w.file? q := by
            rw [walkFrom_place hWalk]
            exact h.front ⟨front⟩ (Path.self_mem_fronts _)
          rcases entry_cases w q with hDir | hSome | hNone
          · rcases entry_cases w' q with hDir' | hSome' | hNone'
            · rw [enter_of_directory hDir, enter_of_directory hDir']
            · rw [hFile, file?_of_directory hDir] at hSome'
              cases hSome'
            · exact absurd (enter_of_none hNone' name) hFound'
          · rw [enter_of_file hSome, enter_of_file (by rw [hFile]; exact hSome)]
          · exact absurd (enter_of_none hNone name) hFound

/-- With more directories a way meets with no less. -/
theorem walkFrom_found_mono {w w' : Workspace} {names : List String}
    (hKeeps : KeepsDirectories w w') (h : SameOnWay w w' ⟨names⟩)
    (hFound : w.walkFrom [] names ≠ .error .missing) :
    w'.walkFrom [] names ≠ .error .missing := by
  induction names using List.reverseRecOn with
  | nil => exact hFound
  | append_singleton front name ih =>
      rw [walkFrom_append] at hFound ⊢
      have hFront : w.walkFrom [] front ≠ .error .missing := by
        intro hMissing
        rw [hMissing] at hFound
        exact hFound rfl
      rw [walkFrom_congr h.front hFront (ih h.front hFront)]
      cases hWalk : w.walkFrom [] front with
      | error cause =>
          rw [hWalk] at hFound
          exact hFound
      | ok q =>
          rw [hWalk] at hFound
          simp only [Except.bind] at hFound ⊢
          rcases entry_cases w q with hDir | hSome | hNone
          · rwa [enter_of_directory (hKeeps q hDir), ← enter_of_directory hDir]
          · have hFile : w'.file? q = w.file? q := by
              rw [walkFrom_place hWalk]
              exact h.front ⟨front⟩ (Path.self_mem_fronts _)
            rw [enter_of_file (by rw [hFile]; exact hSome)]
            intro hMissing
            cases hMissing
          · exact absurd (enter_of_none hNone name) hFound

/-! ## Obstacles -/

/-- What keeps a directory from being made at a path where all directories above it are there. -/
def obstacle? (w : Workspace) (p : Path) : Option FileError :=
  if maxNameLength < p.name.utf8ByteSize then some ⟨.nameTooLong, p, none⟩
  else if (w.file? p.place).isSome then some ⟨.alreadyThere, p, none⟩
  else none

/-- The first obstacle on the way to a path. -/
def firstObstacle? (w : Workspace) (p : Path) : Option FileError :=
  p.fronts.findSome? w.obstacle?

theorem firstObstacle?_snoc (w : Workspace) (names : List String) (name : String) :
    w.firstObstacle? ⟨names ++ [name]⟩ =
      (w.firstObstacle? ⟨names⟩).or (w.obstacle? ⟨names ++ [name]⟩) := by
  rw [firstObstacle?, Path.fronts_snoc, List.findSome?_append, List.findSome?_singleton]
  rfl

theorem obstacle?_congr {w w' : Workspace} {p : Path} (h : w'.file? p.place = w.file? p.place) :
    w'.obstacle? p = w.obstacle? p := by
  rw [obstacle?, obstacle?, h]

/-- The first obstacle depends on the files on the way only. -/
theorem firstObstacle?_congr {w w' : Workspace} {names : List String}
    (h : SameOnWay w w' ⟨names⟩) : w'.firstObstacle? ⟨names⟩ = w.firstObstacle? ⟨names⟩ := by
  induction names using List.reverseRecOn with
  | nil => exact congrArg (Option.or · none) (obstacle?_congr (h _ (Path.self_mem_fronts _)))
  | append_singleton front name ih =>
      rw [firstObstacle?_snoc, firstObstacle?_snoc, ih h.front,
        obstacle?_congr (h _ (Path.self_mem_fronts _))]

theorem obstacle?_of_short {w : Workspace} {names : List String} {name : String}
    (h : name.utf8ByteSize ≤ maxNameLength) :
    w.obstacle? ⟨names ++ [name]⟩ =
      if (w.file? (Path.place ⟨names ++ [name]⟩)).isSome then
        some ⟨.alreadyThere, ⟨names ++ [name]⟩, none⟩ else none := by
  rw [obstacle?, Path.name_snoc, if_neg (by omega)]

theorem firstObstacle?_root (w : Workspace) : w.firstObstacle? Path.root = none := by
  have hFile : w.file? Path.root.place = none := file?_of_directory w.hasDirectory_root
  have hHere : w.obstacle? Path.root = none := by
    rw [obstacle?, hFile]
    rfl
  exact congrArg (Option.or · none) hHere

/-- On a way that can be walked only a file at its end is an obstacle. -/
theorem firstObstacle?_of_walk {w : Workspace} {names : List String} {q : Place}
    (h : w.walkFrom [] names = .ok q) :
    w.firstObstacle? ⟨names⟩ =
      if (w.file? q).isSome then some ⟨.alreadyThere, ⟨names⟩, none⟩ else none := by
  have hPlace : q = Path.place ⟨names⟩ := walkFrom_place h
  induction names using List.reverseRecOn generalizing q with
  | nil =>
      have hFile : w.file? q = none := by
        rw [hPlace]
        exact file?_of_directory w.hasDirectory_root
      rw [hFile]
      exact w.firstObstacle?_root
  | append_singleton front name ih =>
      rw [walkFrom_append] at h
      obtain ⟨before, hFront, hEnter⟩ := bind_eq_ok.mp h
      obtain ⟨hDir, hShort, -⟩ := enter_ok_iff.mp hEnter
      rw [firstObstacle?_snoc, ih hFront (walkFrom_place hFront), file?_of_directory hDir,
        obstacle?_of_short hShort, ← hPlace]
      exact Option.none_or

/-- Without an obstacle a way can be walked as far as there is anything. -/
theorem missing_of_clear {w : Workspace} {names : List String} {cause : FileCause}
    (hClear : w.firstObstacle? ⟨names⟩ = none) (h : w.walkFrom [] names = .error cause) :
    cause = .missing := by
  induction names using List.reverseRecOn with
  | nil => cases h
  | append_singleton front name ih =>
      rw [firstObstacle?_snoc, Option.or_eq_none_iff] at hClear
      obtain ⟨hFront, hLast⟩ := hClear
      rw [walkFrom_append] at h
      cases hWalk : w.walkFrom [] front with
      | error found =>
          rw [hWalk] at h
          cases h
          exact ih hFront hWalk
      | ok q =>
          rw [hWalk] at h
          simp only [Except.bind] at h
          rcases entry_cases w q with hDir | hSome | hNone
          · rw [obstacle?] at hLast
            split at hLast
            · cases hLast
            · next hShort =>
              rw [Path.name_snoc] at hShort
              rw [enter_of_directory hDir, if_neg hShort] at h
              cases h
          · rw [firstObstacle?_of_walk hWalk, if_pos hSome] at hFront
            cases hFront
          · rw [enter_of_none hNone] at h
            exact (Except.error.inj h).symm

/-- A way that meets with an obstacle does so no less if it goes on. -/
theorem found_of_obstacle {w : Workspace} {front : List String} {error : FileError}
    (hObstacle : w.firstObstacle? ⟨front⟩ = some error)
    (h : w.walkFrom [] front ≠ .error .missing) (name : String) :
    w.walkFrom [] (front ++ [name]) ≠ .error .missing := by
  rw [walkFrom_append]
  cases hWalk : w.walkFrom [] front with
  | error cause =>
      rw [hWalk] at h
      exact h
  | ok q =>
      have hFile : (w.file? q).isSome := by
        rw [firstObstacle?_of_walk hWalk] at hObstacle
        split at hObstacle
        · next hFile => exact hFile
        · cases hObstacle
      simp only [Except.bind, enter_of_file hFile]
      decide

/-! ## Attempts -/

theorem makeDirectories_of_walk_error {w : Workspace} {p : Path} {cause : FileCause}
    (h : w.walk p = .error cause) (hFound : cause ≠ .missing) :
    w.makeDirectories p = (w, .error ⟨cause, p, none⟩) := by
  have hLocate : w.locate p = .error ⟨cause, p, none⟩ := by rw [locate, h]
  have hMake : w.makeDirectory p = .error ⟨cause, p, none⟩ := by
    rw [makeDirectory, hLocate]
    rfl
  have hAccept : w.acceptDirectory p ⟨cause, p, none⟩ = .error ⟨cause, p, none⟩ := by
    rw [acceptDirectory, isDirectory, status, hLocate]
    cases cause <;> rfl
  rw [makeDirectories, hMake]
  simp only [hFound, if_false, hAccept]
  rfl

theorem makeDirectories_of_directory {w : Workspace} {p : Path} (h : w.walk p = .ok p.place)
    (hDir : w.HasDirectory p.place) : w.makeDirectories p = (w, .ok ()) := by
  have hLocate : w.locate p = .ok p.place := locate_ok_iff.mpr h
  have hMake : w.makeDirectory p = .error ⟨.alreadyThere, p, none⟩ := by
    rw [makeDirectory, hLocate]
    unfold HasDirectory at hDir
    simp only [bind, Except.bind, hDir]
  rw [makeDirectories, hMake]
  simp only [reduceCtorEq, if_false, acceptDirectory, isDirectory_iff.mpr ⟨hLocate, hDir⟩]
  rfl

theorem makeDirectories_of_file {w : Workspace} {p : Path} (h : w.walk p = .ok p.place)
    (hFile : (w.file? p.place).isSome) :
    w.makeDirectories p = (w, .error ⟨.alreadyThere, p, none⟩) := by
  have hLocate : w.locate p = .ok p.place := locate_ok_iff.mpr h
  obtain ⟨content, hContent⟩ := Option.isSome_iff_exists.mp hFile
  have hEntry := file?_eq_some_iff.mp hContent
  have hMake : w.makeDirectory p = .error ⟨.alreadyThere, p, none⟩ := by
    rw [makeDirectory, hLocate]
    simp only [bind, Except.bind, hEntry]
  have hNone : w.isDirectory p = .ok false := by
    rw [isDirectory, status, hLocate]
    simp only [hEntry]
    rfl
  rw [makeDirectories, hMake]
  simp only [reduceCtorEq, if_false, acceptDirectory, hNone]
  rfl

theorem makeDirectories_of_none {w : Workspace} {p : Path} (h : w.walk p = .ok p.place)
    (hNone : w.entry? p.place = none) :
    w.makeDirectories p = (w.put p.place .directory, .ok ()) := by
  have hMake : w.makeDirectory p = .ok (w.put p.place .directory) := by
    rw [makeDirectory, locate_ok_iff.mpr h]
    simp only [bind, Except.bind, hNone]
    rfl
  rw [makeDirectories, hMake]

theorem walk_of_missing {w : Workspace} {p : Path} {error : FileError}
    (h : w.makeDirectory p = .error error) (hMissing : error.cause = .missing) :
    w.walk p = .error .missing := by
  rw [makeDirectory, locate] at h
  cases hWalk : w.walk p with
  | error cause =>
      rw [hWalk] at h
      cases h
      exact congrArg Except.error hMissing
  | ok q =>
      rw [hWalk] at h
      simp only [bind, Except.bind] at h
      split at h
      · cases h
        cases hMissing
      · cases h

/-- Where the way stops short, the directory above is made first. The path is tried again then, and
with the directory above it its way does not stop short. -/
theorem makeDirectories_of_missing {w : Workspace} {p : Path} (h : w.walk p = .error .missing)
    (hLower : p.parent ≠ p)
    (hAbove : (w.makeDirectories p.parent).2 = .ok () →
      (w.makeDirectories p.parent).1.walk p ≠ .error .missing) :
    w.makeDirectories p =
      match w.makeDirectories p.parent with
      | (w', .error above) => (w', .error above)
      | (w', .ok _) => w'.makeDirectories p := by
  have hMake : w.makeDirectory p = .error ⟨.missing, p, none⟩ := by
    rw [makeDirectory, locate, h]
    rfl
  rw [makeDirectories, hMake]
  simp only [if_true, hLower, if_false]
  cases hParent : w.makeDirectories p.parent with
  | mk w₁ outcome =>
    rw [hParent] at hAbove
    cases outcome with
    | error above => rfl
    | ok made =>
        simp only
        rw [makeDirectories]
        cases hAgain : w₁.makeDirectory p with
        | ok w₂ => rfl
        | error again =>
            have hCause : again.cause ≠ .missing :=
              fun hMissing => hAbove rfl (walk_of_missing hAgain hMissing)
            simp only [hCause, if_false]

/-- The error that names the whole path: its way meets with something that is no directory. -/
def refusal (w : Workspace) (p : Path) : FileError :=
  match w.walk p with
  | .error cause => ⟨cause, p, none⟩
  | .ok _ => ⟨.alreadyThere, p, none⟩

theorem refusal_congr {w w' : Workspace} {p : Path} (h : w'.walk p = w.walk p) :
    w'.refusal p = w.refusal p := by
  rw [refusal, refusal, h]

theorem walk_of_front {w : Workspace} {front : List String} {name : String}
    (h : Path.IsUsable ⟨front ++ [name]⟩) (hDir : w.isDirectory ⟨front⟩ = .ok true) :
    w.walk ⟨front ++ [name]⟩ = if maxNameLength < name.utf8ByteSize then .error .nameTooLong
      else .ok (Path.place ⟨front ++ [name]⟩) := by
  obtain ⟨hLocate, hHere⟩ := isDirectory_iff.mp hDir
  rw [walk_of_isUsable h, walkFrom_append, walk_eq_walkFrom (locate_ok_iff.mp hLocate),
    Path.place_snoc, ← enter_of_directory hHere]
  rfl

/-- Where the directory above is there, the error names the obstacle at the path itself. -/
theorem refusal_of_front {w : Workspace} {front : List String} {name : String} {error : FileError}
    (h : Path.IsUsable ⟨front ++ [name]⟩) (hDir : w.isDirectory ⟨front⟩ = .ok true)
    (hObstacle : w.obstacle? ⟨front ++ [name]⟩ = some error) :
    w.refusal ⟨front ++ [name]⟩ = error := by
  rw [refusal, walk_of_front h hDir]
  rw [obstacle?, Path.name_snoc] at hObstacle
  by_cases hLong : maxNameLength < name.utf8ByteSize
  · rw [if_pos hLong] at hObstacle ⊢
    exact Option.some.inj hObstacle
  · rw [if_neg hLong] at hObstacle ⊢
    split at hObstacle
    · exact Option.some.inj hObstacle
    · cases hObstacle

/-- What an attempt at making a directory with those above it comes to. It succeeds unless there is
an obstacle. Where the way stops short of the obstacle at first, the error names the obstacle. In
every case the way does not stop short any more. -/
structure Attempt (w w' : Workspace) (p : Path) (outcome : Except FileError Unit) : Prop where
  found : w'.walk p ≠ .error .missing
  clear : w.firstObstacle? p = none → outcome = .ok () ∧ w'.isDirectory p = .ok true
  halfway : ∀ e, w.firstObstacle? p = some e → w.walk p = .error .missing → outcome = .error e
  refused : ∀ e, w.firstObstacle? p = some e → w.walk p ≠ .error .missing →
    outcome = .error (w.refusal p)

/-- An attempt whose way does not stop short. -/
theorem attempt_of_found {w : Workspace} {p : Path} (h : p.IsUsable)
    (hFound : w.walk p ≠ .error .missing) :
    Attempt w (w.makeDirectories p).1 p (w.makeDirectories p).2 := by
  have hFrom := walk_of_isUsable h w
  cases hWalk : w.walk p with
  | error cause =>
      have hCause : cause ≠ .missing := by
        rintro rfl
        exact hFound hWalk
      rw [makeDirectories_of_walk_error hWalk hCause]
      refine ⟨hFound, fun hClear => ?_, fun e _ hMissing => absurd hMissing hFound, fun e _ _ => ?_⟩
      · rw [hFrom] at hWalk
        exact absurd (missing_of_clear hClear hWalk) hCause
      · rw [refusal, hWalk]
  | ok q =>
      have hPlace : q = p.place := walk_place hWalk
      subst hPlace
      have hObstacle := firstObstacle?_of_walk (hFrom.symm.trans hWalk)
      rcases entry_cases w p.place with hDir | hFile | hNone
      · rw [makeDirectories_of_directory hWalk hDir]
        rw [file?_of_directory hDir] at hObstacle
        refine ⟨hFound, fun _ => ⟨rfl, isDirectory_iff.mpr ⟨locate_ok_iff.mpr hWalk, hDir⟩⟩,
          fun e he => ?_, fun e he => ?_⟩
        · cases hObstacle.symm.trans he
        · cases hObstacle.symm.trans he
      · rw [makeDirectories_of_file hWalk hFile]
        rw [if_pos hFile] at hObstacle
        refine ⟨hFound, fun hClear => ?_, fun e _ hMissing => absurd hMissing hFound,
          fun e _ _ => ?_⟩
        · cases hObstacle.symm.trans hClear
        · rw [refusal, hWalk]
      · have hGrows := makeDirectories_grows w p
        rw [makeDirectories_of_none hWalk hNone] at hGrows ⊢
        rw [file?_of_none hNone] at hObstacle
        have hWalk' := walk_mono (fun _ => hGrows.directory) hWalk
        have hDir : (w.put p.place .directory).HasDirectory p.place := by
          rw [HasDirectory, entry?_put w (ne_root_of_none hNone), if_pos rfl]
        refine ⟨?_, fun _ => ⟨rfl, isDirectory_iff.mpr ⟨locate_ok_iff.mpr hWalk', hDir⟩⟩,
          fun e he => ?_, fun e he => ?_⟩
        · rw [hWalk']
          intro hError
          cases hError
        · cases hObstacle.symm.trans he
        · cases hObstacle.symm.trans he

/-- Once the directory above is made, the path is tried again. -/
theorem attempt_of_front {w w₁ : Workspace} {front : List String} {name : String}
    (h : Path.IsUsable ⟨front ++ [name]⟩) (hMissing : w.walk ⟨front ++ [name]⟩ = .error .missing)
    (hClear : w.firstObstacle? ⟨front⟩ = none) (hDir : w₁.isDirectory ⟨front⟩ = .ok true)
    (hSame : SameOnWay w w₁ ⟨front ++ [name]⟩) :
    w₁.walk ⟨front ++ [name]⟩ ≠ .error .missing ∧
      Attempt w (w₁.makeDirectories ⟨front ++ [name]⟩).1 ⟨front ++ [name]⟩
        (w₁.makeDirectories ⟨front ++ [name]⟩).2 := by
  have hFound : w₁.walk ⟨front ++ [name]⟩ ≠ .error .missing := by
    rw [walk_of_front h hDir]
    split <;> simp
  have hObstacle := firstObstacle?_congr hSame
  have hAgain := attempt_of_found h hFound
  refine ⟨hFound, hAgain.found, fun hNone => hAgain.clear (hObstacle.trans hNone), fun e he _ => ?_,
    fun e _ hThere => absurd hMissing hThere⟩
  have hHere : w₁.obstacle? ⟨front ++ [name]⟩ = some e := by
    rw [firstObstacle?_snoc, hClear, Option.none_or] at he
    rw [obstacle?_congr (hSame _ (Path.self_mem_fronts _)), he]
  rw [← refusal_of_front h hDir hHere]
  exact hAgain.refused e (hObstacle.trans he) hFound

/-- Where the directory above cannot be made, the attempt ends with its error. -/
theorem attempt_of_front_error {w w₁ : Workspace} {front : List String} {name : String}
    {above : FileError} (h : Path.IsUsable ⟨front ++ [name]⟩)
    (hMissing : w.walk ⟨front ++ [name]⟩ = .error .missing)
    (hObstacle : w.firstObstacle? ⟨front⟩ = some above)
    (hFound : w₁.walk ⟨front⟩ ≠ .error .missing) (hSame : SameOnWay w w₁ ⟨front⟩) :
    Attempt w w₁ ⟨front ++ [name]⟩ (.error above) := by
  have hFirst : w.firstObstacle? ⟨front ++ [name]⟩ = some above := by
    rw [firstObstacle?_snoc, hObstacle, Option.some_or]
  refine ⟨?_, fun hClear => ?_, fun e he _ => ?_, fun e _ hThere => absurd hMissing hThere⟩
  · rw [walk_of_isUsable (Path.isUsable_front h)] at hFound
    rw [walk_of_isUsable h]
    exact found_of_obstacle ((firstObstacle?_congr hSame).trans hObstacle) hFound name
  · cases hFirst.symm.trans hClear
  · rw [hFirst] at he
    rw [Option.some.inj he]

/-- **What an attempt comes to.** It is told by the first obstacle on the way, and by whether the
way stops short of it. -/
theorem attempt_makeDirectories {p : Path} (h : p.IsUsable) (w : Workspace) :
    Attempt w (w.makeDirectories p).1 p (w.makeDirectories p).2 := by
  obtain ⟨names⟩ := p
  -- along the names, of which the last one is tried first
  induction names using List.reverseRecOn with
  | nil =>
      apply attempt_of_found h
      rw [walk_of_isUsable h]
      simp [walkFrom]
  | append_singleton front name ih =>
      by_cases hMissing : w.walk ⟨front ++ [name]⟩ = .error .missing
      · have hFront := Path.isUsable_front h
        have hLong : front ++ [name] ≠ Path.doubleRoot := by
          intro hDouble
          rw [walk_of_isUsable h, hDouble] at hMissing
          cases hMissing
        have hLower : Path.parent ⟨front ++ [name]⟩ ≠ ⟨front ++ [name]⟩ := by
          rw [Path.parent_snoc hLong]
          intro hSame
          have hLength := congrArg (fun p => p.names.length) hSame
          simp at hLength
        have hMake := makeDirectories_of_missing hMissing hLower
        rw [Path.parent_snoc hLong] at hMake
        have hAbove := ih hFront
        have hSame := sameOnWay_makeDirectories w ⟨front⟩
        cases hMade : w.makeDirectories ⟨front⟩ with
        | mk w₁ outcome =>
          rw [hMade] at hMake hAbove hSame
          cases hObstacle : w.firstObstacle? ⟨front⟩ with
          | none =>
              obtain ⟨hOk, hDir⟩ := hAbove.clear hObstacle
              obtain ⟨hFound, hAttempt⟩ := attempt_of_front h hMissing hObstacle hDir (hSame _)
              simp only at hOk
              subst hOk
              rw [hMake fun _ => hFound]
              exact hAttempt
          | some above =>
              -- a way that meets with the obstacle would not stop short
              have hStops : w.walk ⟨front⟩ = .error .missing := by
                rw [walk_of_isUsable hFront]
                by_contra hFound
                rw [walk_of_isUsable h] at hMissing
                exact found_of_obstacle hObstacle hFound name hMissing
              have hError := hAbove.halfway above hObstacle hStops
              simp only at hError
              subst hError
              rw [hMake fun hOk => by cases hOk]
              exact attempt_of_front_error h hMissing hObstacle hAbove.found (hSame _)
      · exact attempt_of_found h hMissing

/-! ## Attempts in larger workspaces -/

/-- Making a directory fails with the error at the first or at a second attempt. -/
def FailsToMake (w : Workspace) (p : Path) (error : FileError) : Prop :=
  (w.makeDirectories p).2 = .error error ∨
    ((w.makeDirectories p).1.makeDirectories p).2 = .error error

/-- At a path that is not usable all attempts fail alike. -/
theorem makeDirectories_of_not_isUsable {p : Path} (h : ¬ p.IsUsable) :
    ∃ cause, ∀ w : Workspace, w.makeDirectories p = (w, .error ⟨cause, p, none⟩) := by
  by_cases hNul : p.holdsNul = true
  · refine ⟨.noPath, fun w => makeDirectories_of_walk_error ?_ (by decide)⟩
    rw [walk, if_pos hNul]
  · refine ⟨.nameTooLong, fun w => makeDirectories_of_walk_error ?_ (by decide)⟩
    have hLong : p.isTooLong = true := by
      by_contra hShort
      exact h ⟨Bool.eq_false_of_not_eq_true hNul, Bool.eq_false_of_not_eq_true hShort⟩
    rw [walk, if_neg hNul, if_pos hLong]

variable {w v : Workspace} {p : Path}

theorem isUsable_of_ok (h : (w.makeDirectories p).2 = .ok ()) : p.IsUsable := by
  by_contra hUnusable
  obtain ⟨cause, hAll⟩ := makeDirectories_of_not_isUsable hUnusable
  rw [hAll w] at h
  cases h

theorem firstObstacle?_of_ok (h : (w.makeDirectories p).2 = .ok ()) :
    w.firstObstacle? p = none := by
  have hAttempt := attempt_makeDirectories (isUsable_of_ok h) w
  cases hObstacle : w.firstObstacle? p with
  | none => rfl
  | some e =>
      by_cases hMissing : w.walk p = .error .missing
      · cases (hAttempt.halfway e hObstacle hMissing).symm.trans h
      · cases (hAttempt.refused e hObstacle hMissing).symm.trans h

/-- A directory that could be made can be made wherever the files on the way are the same. -/
theorem makeDirectories_ok (hFiles : SameOnWay w v p) (h : (w.makeDirectories p).2 = .ok ()) :
    (v.makeDirectories p).2 = .ok () ∧ (v.makeDirectories p).1.isDirectory p = .ok true := by
  have hClear : v.firstObstacle? p = none :=
    (firstObstacle?_congr hFiles).trans (firstObstacle?_of_ok h)
  exact (attempt_makeDirectories (isUsable_of_ok h) v).clear hClear

/-- **A directory that cannot be made is refused in one of two ways.** With more directories, and
the same files on the way, an attempt fails as a first one did, or as a second one would. -/
theorem makeDirectories_alike (hKeeps : KeepsDirectories w v) (hFiles : SameOnWay w v p)
    {error : FileError} (h : (w.makeDirectories p).2 = .error error) :
    ∃ error', (v.makeDirectories p).2 = .error error' ∧ w.FailsToMake p error' := by
  by_cases hUsable : p.IsUsable
  · have hFirst := attempt_makeDirectories hUsable w
    cases hObstacle : w.firstObstacle? p with
    | none =>
        rw [(hFirst.clear hObstacle).1] at h
        cases h
    | some e =>
        have hSecond := attempt_makeDirectories hUsable (w.makeDirectories p).1
        have hOther := attempt_makeDirectories hUsable v
        have hMade := sameOnWay_makeDirectories w p p
        have hObstacle₁ := (firstObstacle?_congr hMade).trans hObstacle
        have hObstacle' := (firstObstacle?_congr hFiles).trans hObstacle
        by_cases hMissing : v.walk p = .error .missing
        · -- the way stopped short before as well, and the obstacle is the same
          have hMissing₀ : w.walk p = .error .missing := by
            by_contra hFound
            rw [walk_of_isUsable hUsable] at hFound hMissing
            exact walkFrom_found_mono hKeeps hFiles hFound hMissing
          exact ⟨e, hOther.halfway e hObstacle' hMissing,
            Or.inl (hFirst.halfway e hObstacle hMissing₀)⟩
        · -- the way meets with the same as that of a second attempt
          have hWalk : v.walk p = (w.makeDirectories p).1.walk p := by
            have hFound := hFirst.found
            rw [walk_of_isUsable hUsable] at hFound hMissing ⊢
            rw [walk_of_isUsable hUsable]
            exact walkFrom_congr (fun front hFront =>
              (hFiles front hFront).trans (hMade front hFront).symm) hFound hMissing
          refine ⟨v.refusal p, hOther.refused e hObstacle' hMissing, Or.inr ?_⟩
          rw [hSecond.refused e hObstacle₁ hFirst.found, refusal_congr hWalk]
  · obtain ⟨cause, hAll⟩ := makeDirectories_of_not_isUsable hUsable
    exact ⟨⟨cause, p, none⟩, congrArg Prod.snd (hAll v), Or.inl (congrArg Prod.snd (hAll w))⟩

/-- The errors of two attempts are both found in the workspace or neither is. -/
theorem isFound_of_failsToMake {error other : FileError} (h : w.FailsToMake p error)
    (hOther : w.FailsToMake p other) : error.isFound = other.isFound := by
  by_cases hNul : p.holdsNul = false
  · have hFound : ∀ e, w.FailsToMake p e → e.isFound = true := by
      rintro e (hFirst | hSecond)
      · exact makeDirectories_found hNul e hFirst
      · exact makeDirectories_found hNul e hSecond
    rw [hFound error h, hFound other hOther]
  · obtain ⟨cause, hAll⟩ := makeDirectories_of_not_isUsable fun hUsable => hNul hUsable.1
    have hSame : ∀ e, w.FailsToMake p e → e = ⟨cause, p, none⟩ := by
      rintro e (hFirst | hSecond)
      · exact (Except.error.inj ((congrArg Prod.snd (hAll w)).symm.trans hFirst)).symm
      · exact (Except.error.inj ((congrArg Prod.snd (hAll _)).symm.trans hSecond)).symm
    rw [hSame error h, hSame other hOther]

theorem makeDirectory_entry? {w' : Workspace} (h : w.makeDirectory p = .ok w') {q : Place}
    (hq : q ≠ p.place) : w'.entry? q = w.entry? q := by
  obtain ⟨place, hLocate, h⟩ := bind_eq_ok.mp h
  have hPlace : place = p.place := walk_place (locate_ok_iff.mp hLocate)
  subst hPlace
  split at h
  · cases h
  · next hNone =>
    cases h
    rw [entry?_put w (ne_root_of_none hNone), if_neg hq]

theorem fronts_parent_subset (p : Path) : p.parent.fronts ⊆ p.fronts := by
  intro front hFront
  unfold Path.parent at hFront
  split at hFront
  · exact hFront
  · exact Path.mem_fronts.mpr ((Path.mem_fronts.mp hFront).trans (List.dropLast_prefix _))

/-- Directories are made on the way only. -/
theorem makeDirectories_entry? (w : Workspace) (p : Path) {q : Place}
    (hq : ∀ front ∈ p.fronts, q ≠ front.place) :
    Workspace.entry? (w.makeDirectories p).1 q = w.entry? q := by
  have hAbove : ∀ path : Path, (∀ front ∈ path.fronts, q ≠ front.place) →
      ∀ front ∈ path.parent.fronts, q ≠ front.place :=
    fun path hq front hFront => hq front (fronts_parent_subset path hFront)
  fun_induction w.makeDirectories p with
  | case1 path w' hMake => exact makeDirectory_entry? hMake (hq path (Path.self_mem_fronts path))
  | case2 => rfl
  | case3 path error hError hMissing hLower w' above hParent ih =>
      rw [hParent] at ih
      exact ih (hAbove path hq)
  | case4 path error hError hMissing hLower w' made hParent w'' hMake ih =>
      rw [hParent] at ih
      have hHere := makeDirectory_entry? hMake (hq path (Path.self_mem_fronts path))
      exact hHere.trans (ih (hAbove path hq))
  | case5 path error hError hMissing hLower w' made hParent again hAgain hMissing' ih =>
      rw [hParent] at ih
      exact ih (hAbove path hq)
  | case6 path error hError hMissing hLower w' made hParent again hAgain hThere ih =>
      rw [hParent] at ih
      exact ih (hAbove path hq)
  | case7 => rfl

end Workspace

end CommBindings
