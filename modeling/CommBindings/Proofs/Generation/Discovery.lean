import CommBindings.Generation.Report
import CommBindings.Proofs.Results

set_option autoImplicit false

/-! # The comms that are discovered

Every comm is discovered once: its documents are gathered under its name.
-/

namespace CommBindings

namespace Discovery

theorem map_name_replace (found : List CommDocuments) (documents : CommDocuments) :
    (found.map fun d => if d.name = documents.name then documents else d).map
      CommDocuments.name = found.map CommDocuments.name := by
  rw [List.map_map]
  apply List.map_congr_left
  intro d _
  show (if d.name = documents.name then documents else d).name = d.name
  by_cases h : d.name = documents.name
  · rw [if_pos h, h]
  · rw [if_neg h]

/-- Putting documents among others keeps every name unique. -/
theorem nodup_insert {found : List CommDocuments} (documents : CommDocuments)
    (h : (found.map CommDocuments.name).Nodup) :
    ((insert found documents).map CommDocuments.name).Nodup := by
  unfold insert
  split
  · rw [map_name_replace]
    exact h
  · next hNew =>
    rw [List.map_append, List.nodup_append]
    refine ⟨h, List.nodup_singleton _, ?_⟩
    intro name hName other hOther hSame
    apply hNew
    obtain ⟨d, hd, hd'⟩ := List.mem_map.mp hName
    have hName' : d.name = documents.name := by
      rw [hd', hSame]
      exact List.mem_singleton.mp hOther
    exact List.any_eq_true.mpr ⟨d, hd, decide_eq_true hName'⟩

theorem nodup_add {found found' : List CommDocuments} {path : Path}
    (h : (found.map CommDocuments.name).Nodup) (hAdd : add found path = .ok found') :
    (found'.map CommDocuments.name).Nodup := by
  unfold add at hAdd
  split at hAdd
  · cases hAdd
    exact h
  · simp only at hAdd
    split at hAdd
    · cases hAdd
    · cases hAdd
      exact nodup_insert _ h

end Discovery

theorem nodup_discover {w : Workspace} {directory : Path} {found : List CommDocuments}
    (h : discover w directory = .ok found) : (found.map CommDocuments.name).Nodup := by
  unfold discover at h
  split at h
  · cases h
  · cases h
  · split at h
    · cases h
    · obtain ⟨gathered, hGathered, hSorted⟩ := bind_eq_ok.mp h
      cases hSorted
      -- sorting only changes the order
      have hPerm := (List.mergeSort_perm gathered fun a b => decide (a.name ≤ b.name)).map
        CommDocuments.name
      rw [hPerm.nodup_iff]
      exact foldlM_keeps (fun found => (found.map CommDocuments.name).Nodup)
        (fun found path found' hFound hAdd => Discovery.nodup_add hFound hAdd) List.nodup_nil
        hGathered

/-- The comms of a run are those that are asked for, or all of them. -/
theorem select_ok {settings : Settings} {all selected : List CommDocuments}
    (h : settings.select all = .ok selected) :
    selected = all.filter fun d => settings.comms.isEmpty || settings.comms.contains d.name := by
  unfold Settings.select at h
  split at h
  · next hNone =>
    cases h
    exact (List.filter_eq_self.mpr fun d _ => by rw [hNone, Bool.true_or]).symm
  · next hSome =>
    simp only at h
    split at h
    · cases h
      refine List.filter_congr fun d _ => ?_
      rw [Bool.eq_false_of_not_eq_true hSome, Bool.false_or]
    · cases h

theorem select_sublist {settings : Settings} {all selected : List CommDocuments}
    (h : settings.select all = .ok selected) : selected.Sublist all := by
  rw [select_ok h]
  exact List.filter_sublist

/-- The comms of a run have names of their own. -/
theorem nodup_plan {settings : Settings} {w : Workspace} {selected : List CommDocuments}
    {independent : Bool} (h : settings.plan w = .ok (selected, independent)) :
    (selected.map CommDocuments.name).Nodup := by
  unfold Settings.plan at h
  obtain ⟨all, hAll, hSelect⟩ := bind_eq_ok.mp h
  obtain ⟨chosen, hChosen, hWorkers⟩ := bind_eq_ok.mp hSelect
  obtain ⟨workers, -, hEnd⟩ := bind_eq_ok.mp hWorkers
  cases hEnd
  exact (nodup_discover hAll).sublist ((select_sublist hChosen).map _)

end CommBindings
