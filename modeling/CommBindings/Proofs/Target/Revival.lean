import CommBindings.Proofs.Contract.Contexts
import CommBindings.Proofs.Contract.Reference
import CommBindings.Target.PythonBinding

set_option autoImplicit false

/-! # Revival ends

To revive a value, references are followed from one shared schema to the next. The shared schemas on
the way are told apart by their keys, unless one of them leads back to itself; so there are never
more of them than there are shared schemas (`Trail.length_le`), and the bound on the number of
references is not reached (`revivalOf_total`).
-/

namespace CommBindings

/-- In the end the schema is the usual reference to the shared schema with a key. -/
def Schema.PointsTo (schema : Schema) (key : String) : Prop :=
  schema.pointer? = some (Python.componentPointer key) ∧
    lastSegment (Python.componentPointer key) = key

namespace Comm

/-- The shared schema with a key, in the first contract that has one. -/
def shared? (comm : Comm) (key : String) : Option Schema :=
  comm.contracts.findSome? fun contract => lookupEntry contract.schemas (.text key)

/-- The shared schema with the first key leads to that with the second, through references and arrays
alone. -/
def Leads (comm : Comm) (key next : String) : Prop :=
  ∃ schema, comm.shared? key = some schema ∧ schema.PointsTo next

/-- No shared schema leads back to itself. -/
def IsAcyclic (comm : Comm) : Prop := ∀ key, ¬ Relation.TransGen comm.Leads key key

/-- The keys of all shared schemas. -/
def sharedKeys (comm : Comm) : List Key :=
  (comm.contracts.flatMap Contract.schemas).map Prod.fst

end Comm

variable {comm : Comm}

theorem mem_sharedKeys {key : String} {schema : Schema} (h : comm.shared? key = some schema) :
    .text key ∈ comm.sharedKeys := by
  obtain ⟨contract, hContract, hLookup⟩ := List.exists_of_findSome?_eq_some h
  exact List.mem_map.mpr
    ⟨_, List.mem_flatMap.mpr ⟨contract, hContract, mem_of_lookupEntry hLookup⟩, rfl⟩

/-- Without shared schemas nothing leads anywhere. -/
theorem isAcyclic_of_sharedKeys (h : comm.sharedKeys = []) : comm.IsAcyclic := by
  intro key hLoop
  obtain ⟨next, ⟨schema, hShared, -⟩, -⟩ := Relation.TransGen.head'_iff.mp hLoop
  have hKey := mem_sharedKeys hShared
  rw [h] at hKey
  cases hKey

/-- Shared schemas that are no references, and no arrays of such, lead nowhere. -/
theorem isAcyclic_of_pointer? (h : ∀ contract ∈ comm.contracts,
    ∀ entry ∈ contract.schemas, entry.2.pointer? = none) : comm.IsAcyclic := by
  intro key hLoop
  obtain ⟨next, ⟨schema, hShared, hPointer, -⟩, -⟩ := Relation.TransGen.head'_iff.mp hLoop
  obtain ⟨contract, hContract, hLookup⟩ := List.exists_of_findSome?_eq_some hShared
  rw [h contract hContract _ (mem_of_lookupEntry hLookup)] at hPointer
  cases hPointer

/-- Keys of shared schemas, no two the same, each of which leads to whatever the schema points to. -/
structure Trail (comm : Comm) (seen : List String) (schema : Schema) : Prop where
  nodup : seen.Nodup
  isShared : ∀ key ∈ seen, .text key ∈ comm.sharedKeys
  leads : ∀ key ∈ seen, ∀ next, schema.PointsTo next → Relation.TransGen comm.Leads key next

theorem trail_nil (schema : Schema) : Trail comm [] schema where
  nodup := List.nodup_nil
  isShared := List.forall_mem_nil _
  leads := List.forall_mem_nil _

theorem Trail.length_le {seen : List String} {schema : Schema} (h : Trail comm seen schema) :
    seen.length ≤ comm.sharedKeys.length := by
  have hNodup : (seen.map Scalar.text).Nodup :=
    h.nodup.map fun _ _ hSame => Scalar.text.inj hSame
  have hSubset : seen.map Scalar.text ⊆ comm.sharedKeys := by
    intro key hKey
    obtain ⟨name, hName, rfl⟩ := List.mem_map.mp hKey
    exact h.isShared name hName
  have hLength := (hNodup.subperm hSubset).length_le
  rwa [List.length_map] at hLength

/-- Where a trail goes on to a shared schema, its key is a new one. -/
theorem Trail.step {seen : List String} {schema target : Schema} {key : String}
    (hAcyclic : comm.IsAcyclic) (h : Trail comm seen schema) (hPoints : schema.PointsTo key)
    (hTarget : comm.shared? key = some target) : Trail comm (key :: seen) target where
  nodup := List.nodup_cons.mpr ⟨fun hSeen => hAcyclic key (h.leads key hSeen key hPoints), h.nodup⟩
  isShared := List.forall_mem_cons.mpr ⟨mem_sharedKeys hTarget, h.isShared⟩
  leads := by
    have hLeads : ∀ next, target.PointsTo next → comm.Leads key next :=
      fun next hNext => ⟨target, hTarget, hNext⟩
    refine List.forall_mem_cons.mpr ⟨fun next hNext => .single (hLeads next hNext), ?_⟩
    exact fun other hOther next hNext => (h.leads other hOther key hPoints).tail (hLeads next hNext)

namespace Python

theorem component?_some {pointer : String} {target : Schema}
    (h : component? comm pointer = some target) :
    pointer = componentPointer (lastSegment pointer) ∧
      comm.shared? (lastSegment pointer) = some target := by
  unfold component? at h
  simp only at h
  split at h
  · next hPointer => exact ⟨hPointer, h⟩
  · cases h

theorem pointsTo_of_component {pointer : String} {description : Option String} {target : Schema}
    (h : component? comm pointer = some target) :
    (Schema.reference pointer description).PointsTo (lastSegment pointer) := by
  have hPointer := (component?_some h).1
  refine ⟨congrArg some hPointer, ?_⟩
  rw [← hPointer]

/-- Revival comes to a result if the references that it may yet follow, with those it has followed,
are as many as there are shared schemas. -/
theorem revivalWithin_total (hAcyclic : comm.IsAcyclic)
    (hShared : ∀ key schema, comm.shared? key = some schema → schema.Resolves comm.contracts)
    {hops : Nat} {seen : List String} {context : Context} {schema : Schema}
    (hContext : IsNamed context) (hResolves : schema.Resolves comm.contracts)
    (hTrail : Trail comm seen schema) (hHops : comm.sharedKeys.length ≤ seen.length + hops) :
    ∃ revival, revivalWithin comm hops context schema = .ok revival := by
  unfold revivalWithin
  match schema with
  | .enumeration values description =>
    obtain ⟨name, hName⟩ := enumName_total hContext
    exact ⟨_, map_eq_ok.mpr ⟨name, hName, rfl⟩⟩
  | .object node =>
    simp only
    split
    · exact ⟨none, rfl⟩
    · obtain ⟨name, hName⟩ := objectName_total node hContext
      exact ⟨_, map_eq_ok.mpr ⟨name, hName, rfl⟩⟩
  | .array items description =>
    obtain ⟨inner, hInner, hNamed⟩ := itemsContext_total hContext
    have hInside : items.Resolves comm.contracts := hResolves
    have hItems : Trail comm seen items := ⟨hTrail.nodup, hTrail.isShared, hTrail.leads⟩
    obtain ⟨revival, hRevival⟩ :=
      revivalWithin_total hAcyclic hShared hNamed hInside hItems hHops
    exact ⟨_, bind_eq_ok.mpr ⟨inner, hInner, bind_eq_ok.mpr ⟨revival, hRevival, rfl⟩⟩⟩
  | .primitive kind description => exact ⟨none, rfl⟩
  | .reference pointer description =>
    obtain ⟨name, hName⟩ := hResolves pointer rfl
    simp only
    split
    · exact ⟨none, rfl⟩
    · next target hTarget =>
      have hStep := hTrail.step hAcyclic (pointsTo_of_component hTarget) (component?_some hTarget).2
      split
      · split
        · exact ⟨none, rfl⟩
        · exact ⟨_, map_eq_ok.mpr ⟨name, hName, rfl⟩⟩
      · exact ⟨_, map_eq_ok.mpr ⟨name, hName, rfl⟩⟩
      · cases hops with
        | zero =>
            -- one more reference cannot be left: its key would be one too many
            have hLonger := hStep.length_le
            rw [List.length_cons] at hLonger
            omega
        | succ hops =>
            refine revivalWithin_total hAcyclic hShared
              (isNamed_cons rfl (List.forall_mem_nil _))
              (hShared _ target (component?_some hTarget).2) hStep ?_
            rw [List.length_cons]
            omega
termination_by (hops, sizeOf schema)

/-- Revival comes to a result where no shared schema leads back to itself. -/
theorem revivalOf_total (hAcyclic : comm.IsAcyclic)
    (hShared : ∀ key schema, comm.shared? key = some schema → schema.Resolves comm.contracts)
    {context : Context} {schema : Schema} (hContext : IsNamed context)
    (hResolves : schema.Resolves comm.contracts) :
    ∃ revival, revivalOf comm context schema = .ok revival := by
  refine revivalWithin_total hAcyclic hShared hContext hResolves (trail_nil schema) ?_
  rw [Comm.sharedKeys, List.length_map, List.length_nil, Nat.zero_add]

end Python

end CommBindings
