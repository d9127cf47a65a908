import Clearance.Proofs.Policy.Acceptance
import Clearance.Proofs.Registry.Surfacing

/-! How building fails.

Whatever a plan names, lists and requires, building answers with a policy or ends in a
configuration error, unless it trips (`Plan.Trips`): over a declared credential, over a field
whose unknown access kinds cannot be sorted, or over a value that has to be refused but cannot
be written out. `build_eq_error_iff` says when it does, and that nothing else ever goes wrong. -/
namespace Clearance

namespace Policy

variable {plan : Plan}

/-! ## What building trips over -/

/-- The registry that a plan declares its credentials in. -/
def Plan.start (plan : Plan) : Registry :=
  startRegistry plan.entityType plan.includeDefaults.isTrue plan.softDelete.isTrue

/-- How building a plan fails when it is not refused. -/
inductive Plan.Trips (plan : Plan) : Failure → Prop
  /-- An entity type has to be refused that cannot be written out. -/
  | entityType (h : plan.entityType.writable = false) : Trips plan .illFormed
  /-- The registry trips over one of the declared credentials. -/
  | credential {f : Failure} (hentity : checkEntityType plan.entityType = .ok ())
    (h : plan.start.TripsOver plan.items f) : Trips plan f
  /-- The credentials are accepted, and the fields up to one that reading trips over. -/
  | field {f : Failure} {registry : Registry} {entries : List (Value × Value)}
    (hentity : checkEntityType plan.entityType = .ok ())
    (hdeclared : (declared plan.start plan.credentials).outcome = .ok registry)
    (hreferenced : plan.Referenced) (hentries : plan.fieldTable.entries? = some entries)
    (h : StopsIn (fun e => e.1.IsName ∧ FieldPolicy.Shaped e.2 ∧
        FieldPolicy.Fits plan.Declares e.1 e.2)
      (fun e => FieldPolicy.Trips plan.Declares e.1 e.2 f) entries) : Trips plan f

/-! ## Stages -/

theorem surfaces_declared {start : Registry} (hstart : start.ListsNames)
    (howner : start.entityType.writable = true) {items : List Registry.Item}
    (hitems : Registry.itemsOf? plan.credentials = some items) :
    Surfaces (start.TripsOver items) (declared start plan.credentials).outcome := by
  rw [outcome_declared start hitems]
  exact ((Registry.surfaces_addAll hstart howner items).bind fun _ _ => surfaces_ok).congr
    fun f => by simp

/-- The stages behind the entity type, one after the other. -/
theorem surfaces_stages (howner : plan.entityType.writable = true) {items : List Registry.Item}
    (hitems : Registry.itemsOf? plan.credentials = some items)
    {entries : List (Value × Value)} (hentries : plan.fieldTable.entries? = some entries) :
    Surfaces (fun f => plan.start.TripsOver items f ∨
        ∃ registry, (declared plan.start plan.credentials).outcome = .ok registry ∧
          plan.Referenced ∧ StopsIn (fun e => e.1.IsName ∧ FieldPolicy.Shaped e.2 ∧
            FieldPolicy.Fits plan.Declares e.1 e.2)
            (fun e => FieldPolicy.Trips plan.Declares e.1 e.2 f) entries) (do
      let registry ← (declared plan.start plan.credentials).outcome
      let compiled ← (registry.declared.compile plan.entityType).outcome
      let checked ← FieldPolicy.readAll plan.entityType (knows compiled) plan.fieldTable
      pure (⟨plan.entityType, compiled, checked, (policyHooks plan).freeze, plan.softDelete,
        strictness plan⟩ : Policy)) := by
  have hstart : plan.start.ListsNames := (Registry.holds_startRegistry ..).listsNames
  have hentity : plan.start.entityType.writable = true := by
    rw [Plan.start, entityType_startRegistry]
    exact howner
  refine ((surfaces_declared hstart hentity hitems).bind fun registry hdeclared => ?_)
  have hholds := holds_of_declared hdeclared
  have hcompile := rejectsUnless_compile hholds howner
  refine ((hcompile.surfaces rfl).bind fun compiled hcompiled =>
    ((FieldPolicy.rejectsUnless_readAll (tells_knows hholds hcompiled) howner hentries).surfaces
      rfl).bind fun _ _ => surfaces_ok).congr fun f => ?_
  simp only [false_or, and_false, exists_false, or_false, exists_and_right]
  exact and_congr_left fun _ => ⟨fun ⟨_, hok⟩ => hcompile.of_ok hok, hcompile.answers⟩

/-- Building goes through all of its stages, the entity type first. -/
theorem surfaces_build {items : List Registry.Item}
    (hitems : Registry.itemsOf? plan.credentials = some items)
    {entries : List (Value × Value)} (hentries : plan.fieldTable.entries? = some entries) :
    Surfaces plan.Trips (build plan).outcome := by
  rw [outcome_build]
  refine (((rejectsUnless_checkEntityType plan.entityType).surfaces rfl).bind fun _ hentity =>
    surfaces_stages (checkEntityType_eq_ok_iff.mp hentity).1.writable hitems hentries).congr
    fun f => ?_
  constructor
  · rintro (⟨rfl, h⟩ | ⟨_, hentity, h | ⟨registry, hdeclared, hreferenced, h⟩⟩)
    · exact .entityType h
    · exact .credential hentity (by rwa [Plan.items, hitems])
    · exact .field hentity hdeclared hreferenced hentries h
  · rintro (h | ⟨hentity, h⟩ | ⟨hentity, hdeclared, hreferenced, hentries', h⟩)
    · exact .inl ⟨rfl, h⟩
    · rw [Plan.items, hitems] at h
      exact .inr ⟨(), hentity, .inl h⟩
    · cases hentries.symm.trans hentries'
      exact .inr ⟨(), hentity, .inr ⟨_, hdeclared, hreferenced, h⟩⟩

/-- What building trips over is a value of a kind that cannot be used, or one that cannot be
written out. -/
theorem Plan.Trips.cases_failure {f : Failure} (h : plan.Trips f) :
    f = .mismatch ∨ f = .illFormed := by
  cases h with
  | entityType => exact .inr rfl
  | credential _ h =>
    obtain ⟨before, item, after, -, -, htrips⟩ := h
    cases htrips with
    | key => exact .inr rfl
    | value _ h => cases h <;> simp
  | field _ _ _ _ h =>
    obtain ⟨before, e, after, -, -, htrips⟩ := h
    cases htrips with
    | field => exact .inr rfl
    | spec _ h => cases h <;> simp
    | requirement => exact .inr rfl

/-- **How building fails.** A plan whose credentials can be walked through and whose fields
are a mapping is built, or ends in a configuration error, unless building trips over one of
them. Then, and only then, it ends in another failure: a value is of a kind that cannot be
used, or it cannot be written out. -/
theorem build_eq_error_iff {items : List Registry.Item}
    (hitems : Registry.itemsOf? plan.credentials = some items)
    {entries : List (Value × Value)} (hentries : plan.fieldTable.entries? = some entries) :
    ((build plan).outcome = .error .mismatch ↔ plan.Trips .mismatch) ∧
      ((build plan).outcome = .error .illFormed ↔ plan.Trips .illFormed) ∧
      (¬ plan.Trips .mismatch → ¬ plan.Trips .illFormed → (∃ p, (build plan).outcome = .ok p) ∨
        ∃ r, (build plan).outcome = .error (.rejected r) ∧
          r.kind.isA .configuration = true) := by
  have hsurfaces := surfaces_build hitems hentries
  refine ⟨hsurfaces.error_iff id, hsurfaces.error_iff id, fun hmismatch hillFormed => ?_⟩
  cases hbuild : (build plan).outcome with
  | ok p => exact .inl ⟨p, rfl⟩
  | error f =>
    rcases hsurfaces.surfacing f hbuild with hf | hf
    · cases f with
      | rejected r => exact .inr ⟨r, rfl, hf⟩
      | _ => exact hf.elim
    · rcases hf.cases_failure with rfl | rfl
      · exact absurd hf hmismatch
      · exact absurd hf hillFormed

/-- Pages one of whose credentials is declared anew with a list in place of a tuple. -/
def listedPlan : Plan where
  entityType := .text "Page"
  credentials :=
    .list [Credential.toValue { name := .text "view", implies := .list [.text "edit"] }]

theorem build_listedPlan :
    listedPlan.Trips .mismatch ∧ (build listedPlan).outcome = .error .mismatch := by
  have hjoin : ((listedPlan.start.find? "view").any fun old =>
      (Credential.concatenate? old.implies (.list [.text "edit"])).isNone) = true := by
    decide +kernel
  obtain ⟨old, hold, hnone⟩ := (Option.any_eq_true _ _).mp hjoin
  have htrips : listedPlan.Trips .mismatch := by
    refine .credential rfl ⟨[], _, [], rfl, rfl, .value rfl (.unjoinable rfl rfl ?_ hold ?_)⟩
    · intro r
      cases r with
      | implies => exact ⟨[.text "edit"], rfl, by simp⟩
      | _ => exact ⟨[], rfl, by simp⟩
    · exact ⟨.implies, Option.isNone_iff_eq_none.mp hnone⟩
  exact ⟨htrips, (build_eq_error_iff rfl rfl).1.mpr htrips⟩

/-- An invoice to approve, which is said to imply a number. -/
def numberedPlan : Plan where
  entityType := .text "Invoice"
  credentials := .list [Credential.toValue { name := .text "approve", implies := .int 5 }]

/-- A relation that is no collection is not refused with a configuration error. -/
theorem build_numberedPlan : (build numberedPlan).outcome = .error .mismatch ∧
    ¬ Surfaces (fun _ => False) (build numberedPlan).outcome := by
  have hbuild : (build numberedPlan).outcome = .error .mismatch := rfl
  exact ⟨hbuild, fun h => (h.surfacing _ hbuild).elim id id⟩

end Policy

end Clearance
