import Clearance.Hooks
import Clearance.Proofs.Entries
import Clearance.Proofs.Run

/-! Which hook is consulted.

Registering replaces the hook under an old key and keeps the hooks under all others, so
that a table is known by the last registration for each key. About a kind on a field the
last hook for just that is consulted, and the last one for all fields only where there is
none (`fieldHook?_registerAll`). -/
namespace Clearance.HookTable

/-- A table after a registration is tried. One that is refused leaves the table as it was. -/
def registering (t : HookTable) (r : Registration) : HookTable :=
  (t.register r).toOption.getD t

/-- The table that registrations leave, one after the other. -/
def registerAll (rs : List Registration) : HookTable :=
  rs.foldl registering .empty

/-- The hook that a registration brings for exactly a kind on a field. The hooks for all
fields are those of the null field. -/
def Registration.fieldHook? (field kind : Value) : Registration → Option Hook
  | .access .. => none
  | .field f k hook => if (field, kind) == (f, k) then some hook else none

/-- The hooks that are registered for exactly a kind on a field, in order. -/
def registered (rs : List Registration) (field kind : Value) : List Hook :=
  rs.filterMap (·.fieldHook? field kind)

/-- The hook that is consulted about a kind on a field after some registrations: the last
one for exactly that, else the last one for all fields. -/
def consulted (rs : List Registration) (field kind : Value) : Option Hook :=
  (registered rs field kind).getLast?.or (registered rs .null kind).getLast?

variable {t : HookTable} {r : Registration} {rs : List Registration} {field kind : Value}

/-! ## One registration -/

theorem frozen_registering (t : HookTable) (r : Registration) :
    (t.registering r).frozen = t.frozen := by
  unfold registering
  cases h : t.register r with
  | error e => rfl
  | ok t' =>
    unfold register at h
    split at h
    · cases h
    · cases r with
      | access k hook =>
        obtain ⟨_, -, h⟩ := bind_eq_ok_iff.mp h
        cases h
        rfl
      | field f k hook =>
        obtain ⟨_, -, h⟩ := bind_eq_ok_iff.mp h
        obtain ⟨_, -, h⟩ := bind_eq_ok_iff.mp h
        cases h
        rfl

/-- What is equal to a name, or to null, can be a key. -/
theorem hashable_of_same {v w : Value} (hv : v.IsName ∨ v = .null) (h : (v == w) = true) :
    w.hashable = true := by
  rw [Value.beq_eq_same] at h
  rcases hv with hname | rfl
  · exact Value.hashable_of_isName
      (Value.text?_eq_some_iff.mp ((Value.same_iff_of_isName hname).mp h)).1
  · rw [Value.same_null_iff.mp h]
    rfl

/-- A registration is found under its own key and leaves what stands under others. -/
theorem lookup_registering (hopen : t.frozen = false) (hfield : field.IsName ∨ field = .null)
    (hkind : kind.IsName) : (t.registering r).fields.lookup (field, kind) =
      (r.fieldHook? field kind).or (t.fields.lookup (field, kind)) := by
  have hsharp : Entries.Sharp field := by
    rcases hfield with hname | rfl
    · exact Entries.sharp_of_isName hname
    · exact Entries.sharp_null
  have hkey := hsharp.prod (Entries.sharp_of_isName hkind)
  cases r with
  | access k hook =>
    simp only [registering, register, hopen]
    cases asKey k <;> rfl
  | field f k hook =>
    cases hsame : ((field, kind) == (f, k)) with
    | true =>
      obtain ⟨hf, hk⟩ := (Bool.and_eq_true _ _).mp hsame
      have hregister : t.register (.field f k hook) =
          .ok { t with fields := Entries.put (f, k) hook t.fields } := by
        simp [register, hopen, asKey, hashable_of_same hfield hf, hashable_of_same (.inl hkind) hk,
          bind, Except.bind, pure, Except.pure]
      rw [registering, hregister, Registration.fieldHook?, if_pos hsame, Option.some_or]
      exact (hkey.lookup_put ..).trans (if_pos hsame)
    | false =>
      -- whether it is refused or not, nothing changes under the key
      rw [Registration.fieldHook?, hsame, if_neg Bool.false_ne_true, Option.none_or]
      have hput : (Entries.put (f, k) hook t.fields).lookup (field, kind) =
          t.fields.lookup (field, kind) := by
        rw [hkey.lookup_put, hsame, if_neg Bool.false_ne_true]
      simp only [registering, register, hopen]
      cases asKey f with
      | error e => rfl
      | ok _ =>
        cases asKey k with
        | error e => rfl
        | ok _ => exact hput

/-! ## All registrations -/

theorem getLast?_registered_cons (r : Registration) (rest : List Registration) :
    (registered (r :: rest) field kind).getLast? =
      (registered rest field kind).getLast?.or (r.fieldHook? field kind) := by
  rw [registered, List.filterMap_cons]
  cases r.fieldHook? field kind with
  | none => simp [registered]
  | some hook =>
    rw [List.getLast?_cons, registered]
    cases (rest.filterMap (·.fieldHook? field kind)).getLast? <;> rfl

theorem lookup_foldl_registering (hopen : t.frozen = false)
    (hfield : field.IsName ∨ field = .null) (hkind : kind.IsName) :
    (rs.foldl registering t).fields.lookup (field, kind) =
      (registered rs field kind).getLast?.or (t.fields.lookup (field, kind)) := by
  induction rs generalizing t with
  | nil => rfl
  | cons r rest ih =>
    rw [List.foldl_cons, ih ((frozen_registering t r).trans hopen),
      lookup_registering hopen hfield hkind, getLast?_registered_cons, Option.or_assoc]

/-- **The last registration wins**, and one for the field itself wins over all others. -/
theorem fieldHook?_registerAll (rs : List Registration) (hfield : field.IsName)
    (hkind : kind.IsName) : (registerAll rs).fieldHook? field kind = consulted rs field kind := by
  have hlookup : ∀ field : Value, field.IsName ∨ field = .null →
      (registerAll rs).fields.lookup (field, kind) = (registered rs field kind).getLast? := by
    intro field hfield
    rw [registerAll, lookup_foldl_registering rfl hfield hkind, empty, List.lookup_nil,
      Option.or_none]
  rw [fieldHook?, hlookup field (.inl hfield), hlookup .null (.inr rfl), consulted]
  cases (registered rs field kind).getLast? <;> rfl

/-- A registration for another key is not consulted, nor is one for all fields where the
field has a hook of its own. -/
theorem consulted_of_removed {before after : List Registration}
    (hother : r.fieldHook? field kind = none)
    (hall : r.fieldHook? .null kind = none ∨ registered (before ++ r :: after) field kind ≠ []) :
    consulted (before ++ after) field kind = consulted (before ++ r :: after) field kind := by
  have hsame : ∀ {field : Value}, r.fieldHook? field kind = none →
      registered (before ++ after) field kind = registered (before ++ r :: after) field kind := by
    intro field hnone
    simp [registered, hnone]
  rw [consulted, consulted, hsame hother]
  rcases hall with hnone | hexact
  · rw [hsame hnone]
  · obtain ⟨hook, hlast⟩ := Option.ne_none_iff_exists'.mp (mt List.getLast?_eq_none_iff.mp hexact)
    rw [hlast, Option.some_or, Option.some_or]

end Clearance.HookTable
