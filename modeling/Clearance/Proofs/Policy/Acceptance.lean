import Clearance.Proofs.FieldPolicy
import Clearance.Proofs.Policy.Build
import Clearance.Proofs.Registry.Acceptance

/-! Which plans are built.

Building asks for four things, one after the other: an acceptable entity type, acceptable
names of all declared credentials, references to nothing but merged credentials, and field
requirements that mean something. `build_ok_iff_accepted` says that nothing else can go
wrong, and which rejection a plan ends in that lacks one of them: unless its message has to
write out a number with too many digits. -/
namespace Clearance

namespace Policy

variable {plan : Plan}

/-! ## What is asked for -/

/-- A plan as code writes it: texts for names, credentials with tuples for relations, and
fields that are objects or mappings. -/
structure Plan.Typed (plan : Plan) : Prop where
  entityType : plan.entityType.IsName
  credentials : ∃ items, Registry.itemsOf? plan.credentials = some items ∧
    ∀ item ∈ items, item.Typed
  fields : ∃ entries, plan.fieldTable.entries? = some entries ∧
    ∀ e ∈ entries, e.1.IsName ∧ FieldPolicy.TypedSpec e.2

/-- A name is one of the merged credentials. -/
def Plan.Declares (plan : Plan) (name : String) : Prop :=
  ∃ c ∈ plan.merged, c.name.text? = some name

/-- Every declared credential has an acceptable name, and stands under it. -/
def Plan.Named (plan : Plan) : Prop :=
  ∀ item ∈ plan.items, item.Named

/-- Every name in a relation of a merged credential is a merged credential. -/
def Plan.Referenced (plan : Plan) : Prop :=
  ∀ r a b, plan.Lists r a b → plan.Declares b

/-- Every field is accepted with what it is configured with. -/
def Plan.FieldsFit (plan : Plan) : Prop :=
  ∀ entries, plan.fieldTable.entries? = some entries →
    ∀ e ∈ entries, FieldPolicy.Fits plan.Declares e.1 e.2

/-- Behind credentials that stand under their names comes one under a key that cannot be
written out. -/
def Plan.Unkeyable (plan : Plan) : Prop :=
  StopsIn Registry.Item.Named Registry.Item.Unkeyable plan.items

/-- Behind fields that are accepted comes one with a requirement that cannot be written out,
and the first thing to refuse about it. -/
def Plan.FieldUnwritable (plan : Plan) : Prop :=
  ∃ entries, plan.fieldTable.entries? = some entries ∧
    StopsIn (fun e => FieldPolicy.Fits plan.Declares e.1 e.2) (fun e => e.1.word ≠ "" ∧
      FieldPolicy.OnlyKinds e.2 ∧ FieldPolicy.Unwritable plan.Declares e.2) entries

/-! ## The stages of building -/

/-- The entity type is taken exactly when it is a text that is acceptable. -/
theorem rejectsUnless_checkEntityType (v : Value) :
    RejectsUnless .configuration (v.IsName ∧ Name.Accepted v.word) (checkEntityType v)
      (Sticks (v.writable = false)) := by
  cases htext : v.text? with
  | none =>
    rw [checkEntityType, htext]
    refine rejectsUnless_refuse ?_ rfl (by simp [Rejection.written])
    simp [Value.IsName, htext]
  | some s =>
    obtain ⟨hname, rfl⟩ := Value.text?_eq_some_iff.mp htext
    rw [checkEntityType, htext]
    refine RejectsUnless.congr (Name.rejectsUnless_accepted rfl rfl ?_) (and_iff_right hname).symm
      fun f => by simp [Sticks, hname.writable]
    simp [Rejection.written, hname.writable]

theorem checkEntityType_eq_ok_iff {v : Value} :
    checkEntityType v = .ok () ↔ v.IsName ∧ Name.Accepted v.word :=
  ⟨(rejectsUnless_checkEntityType v).of_ok, fun h =>
    ((rejectsUnless_checkEntityType v).answers h).elim fun _ h => h⟩

/-- The entity type of whatever is built is a name. -/
theorem isName_entityType {p : Policy} (h : (build plan).outcome = .ok p) :
    plan.entityType.IsName :=
  (checkEntityType_eq_ok_iff.mp (build_ok_iff.mp h).1).1

/-- The built-in credentials are as code declares them. -/
theorem typed_startRegistry (entityType : Value) (includeDefaults softDelete : Bool) :
    (startRegistry entityType includeDefaults softDelete).Typed := by
  have htyped := Registry.forall_builtIn Credential.typed_ofNames includeDefaults softDelete
  rw [← (Registry.startRegistry_eq entityType includeDefaults softDelete).1]
  refine (Registry.typed_empty entityType).addAll ?_
  rw [Registry.unkeyed, List.forall_mem_map]
  exact fun c hc => ⟨c, rfl, htyped c hc⟩

/-- Declaring a collection answers with the table that its items leave. -/
theorem outcome_declared (start : Registry) {credentials : Value} {items : List Registry.Item}
    (hitems : Registry.itemsOf? credentials = some items) :
    (declared start credentials).outcome =
      ((start.addAll items).2.outcome >>= fun _ => .ok (start.addAll items).1) := by
  unfold declared Registry.update
  simp only [hitems]
  exact Run.outcome_andThen _ _

/-- The declared credentials are taken exactly when each of them is named as it should be. -/
theorem rejectsUnless_declared (h : plan.Typed) {start : Registry} (hstart : start.Typed)
    (howner : start.entityType.writable = true) :
    RejectsUnless .invalidCredential plan.Named (declared start plan.credentials).outcome
      (Sticks plan.Unkeyable) := by
  obtain ⟨items, hitems, htyped⟩ := h.credentials
  rw [outcome_declared start hitems, Plan.Named, Plan.Unkeyable, Plan.items, hitems]
  exact (Registry.rejectsUnless_addAll hstart howner htyped).map fun _ => (start.addAll items).1

/-- The table of the merged credentials, once they are all taken. -/
theorem holds_of_declared {registry : Registry}
    (hdeclared : (declared (startRegistry plan.entityType plan.includeDefaults.isTrue
      plan.softDelete.isTrue) plan.credentials).outcome = .ok registry) :
    registry.Holds plan.merged := by
  obtain ⟨items, hitems, hok, rfl⟩ := declared_ok_iff.mp hdeclared
  rw [Plan.merged, Plan.items, hitems]
  exact (Registry.holds_startRegistry _ _ _).addAll items hok

/-- What the table declares, the plan does. -/
theorem mem_declared_iff {registry : Registry} (h : registry.Holds plan.merged) {s : String} :
    (s ∈ registry.declared.map fun e => e.1.word) ↔ plan.Declares s := by
  rw [h.word_declared, h.declared]
  rfl

/-- The merged credentials compile exactly when they refer to nothing else. -/
theorem rejectsUnless_compile {registry : Registry} (h : registry.Holds plan.merged)
    {owner : Value} (howner : owner.writable = true) :
    RejectsUnless .unknownReference plan.Referenced
      (registry.declared.compile owner).outcome := by
  have hknown : registry.declared.Known ↔ plan.Referenced := by
    simp only [Declared.Known, Plan.Referenced, mem_declared_iff h]
    exact forall₃_congr fun r a b => imp_congr_left h.lists_declared
  refine (Declared.compile_outcome h.wellFormed_declared owner).1.congr hknown fun f => ?_
  simp [Sticks, howner]

/-- A requirement may name exactly the merged credentials. -/
theorem known_iff_declares {registry : Registry} (h : registry.Holds plan.merged) {owner : Value}
    {compiled : List Capability} (hcompiled : (registry.declared.compile owner).outcome =
      .ok compiled) {v : Value} (hv : v.IsName) :
    compiled.any (·.name == v) = true ↔ plan.Declares v.word := by
  have hc := (Declared.closes_of_compile h.wellFormed_declared hcompiled).2
  rw [← mem_declared_iff h, ← hc.map_word, List.any_eq_true, List.mem_map]
  refine exists_congr fun c => and_congr_right fun hmem => ?_
  rw [Value.beq_eq_same, Value.same_iff_of_isName_right hv,
    (hc.isName h.wellFormed_declared hmem).text?, Option.some.injEq]

/-- A test for the names of some compiled credentials. -/
def knows (compiled : List Capability) : Known :=
  fun name => .ok (compiled.any (·.name == name))

theorem tells_knows {registry : Registry} (h : registry.Holds plan.merged) {owner : Value}
    {compiled : List Capability}
    (hcompiled : (registry.declared.compile owner).outcome = .ok compiled) :
    FieldPolicy.Tells (knows compiled) plan.Declares :=
  fun _ hv => ⟨_, rfl, known_iff_declares h hcompiled hv⟩

/-- The fields are read exactly when each of them is accepted. -/
theorem rejectsUnless_fields (h : plan.Typed) {registry : Registry}
    (hholds : registry.Holds plan.merged) {owner : Value} {compiled : List Capability}
    (hcompiled : (registry.declared.compile owner).outcome = .ok compiled) :
    RejectsUnless .invalidFieldPolicy plan.FieldsFit
      (FieldPolicy.readAll plan.entityType (knows compiled) plan.fieldTable)
      (Sticks plan.FieldUnwritable) := by
  obtain ⟨entries, hentries, htyped⟩ := h.fields
  have hfits : ∀ e ∈ entries, (e.1.IsName ∧ FieldPolicy.Shaped e.2 ∧
      FieldPolicy.Fits plan.Declares e.1 e.2) ↔ FieldPolicy.Fits plan.Declares e.1 e.2 :=
    fun e he => by simp [(htyped e he).1, (htyped e he).2.shaped]
  refine (FieldPolicy.rejectsUnless_readAll (tells_knows hholds hcompiled) h.entityType.writable
    hentries).congr ?_ fun f => ?_
  · simp only [Plan.FieldsFit, hentries, Option.some.injEq, forall_eq']
    exact forall₂_congr hfits
  · rw [stopsIn_congr hfits fun e he => FieldPolicy.trips_iff_of_typed (htyped e he).1
      (htyped e he).2]
    simp only [Sticks, stopsIn_and_left, Plan.FieldUnwritable, hentries, Option.some.injEq,
      exists_eq_left']

/-- Building goes through its stages one after the other. -/
theorem outcome_build (plan : Plan) : (build plan).outcome = (do
    checkEntityType plan.entityType
    let registry ← (declared (startRegistry plan.entityType plan.includeDefaults.isTrue
      plan.softDelete.isTrue) plan.credentials).outcome
    let compiled ← (registry.declared.compile plan.entityType).outcome
    let checked ← FieldPolicy.readAll plan.entityType (knows compiled) plan.fieldTable
    pure ⟨plan.entityType, compiled, checked, (policyHooks plan).freeze, plan.softDelete,
      strictness plan⟩) := by
  unfold build
  simp only [Run.bind_eq, Run.outcome_andThen, Run.outcome_ofExcept]
  rfl

theorem entityType_startRegistry (entityType : Value) (includeDefaults softDelete : Bool) :
    (startRegistry entityType includeDefaults softDelete).entityType = entityType := by
  obtain ⟨heq, -⟩ := Registry.startRegistry_eq entityType includeDefaults softDelete
  rw [← heq, Registry.entityType_addAll]
  rfl

/-- **The four stages in order.** -/
theorem decided_build (h : plan.Typed) :
    Decided [⟨.configuration, Name.Accepted plan.entityType.word, fun _ => False⟩,
      ⟨.invalidCredential, plan.Named, Sticks plan.Unkeyable⟩,
      ⟨.unknownReference, plan.Referenced, fun _ => False⟩,
      ⟨.invalidFieldPolicy, plan.FieldsFit, Sticks plan.FieldUnwritable⟩] (build plan).outcome := by
  have howner := h.entityType.writable
  have hentity : RejectsUnless .configuration (Name.Accepted plan.entityType.word)
      (checkEntityType plan.entityType) :=
    (rejectsUnless_checkEntityType plan.entityType).congr (and_iff_right h.entityType)
      fun f => by simp [Sticks, howner]
  rw [outcome_build]
  refine hentity.decided fun _ _ => ?_
  refine (rejectsUnless_declared h (typed_startRegistry _ _ _)
    (by rw [entityType_startRegistry]; exact howner)).decided fun registry hdeclared => ?_
  have hholds := holds_of_declared hdeclared
  refine (rejectsUnless_compile hholds howner).decided fun compiled hcompiled => ?_
  exact (rejectsUnless_fields h hholds hcompiled).decided fun _ _ => ⟨_, rfl⟩

/-! ## Acceptance -/

/-- Letters that are only marked as deleted, without any credential of their own. -/
def strayPlan : Plan where
  entityType := .text "Letter"
  includeDefaults := .bool false
  softDelete := .bool true

/-- Letters whose seal is seen by whoever holds a number of too many digits. -/
def endlessPlan : Plan where
  entityType := .text "Letter"
  includeDefaults := .bool false
  fields := .dict [(.text "seal", .dict [(.text "view", .int (10 ^ Decimal.mostDigits))])]

example : (build endlessPlan).outcome matches .error .illFormed := by decide +kernel

end Policy

end Clearance
