import Clearance.Proofs.Credential.Name
import Clearance.Proofs.Registry.Holding

/-! How declarations of any kind fail.

A registry is given credentials whose names and relations are whatever the caller put
there. Almost everything that is wrong with them is a configuration error. Three things are
not (`Registry.Trips`): a relation that cannot be walked through, one that cannot be put behind
the one that is kept under the same name, and a name, a key or a reference that has to be
refused but cannot be written out. -/
namespace Clearance

namespace Credential

/-- A relation lists names. -/
def NamesIn (c : Credential) (r : Relation) : Prop :=
  ∃ items, (c.relation r).members? = some items ∧ ∀ v ∈ items, v.IsName

/-- A relation cannot be walked through, and the ones before it list names. -/
def Unwalkable (c : Credential) (relations : List Relation) : Prop :=
  StopsIn c.NamesIn (fun r => (c.relation r).members? = none) relations

/-- The first thing that is listed and is no name cannot be written out. -/
def Unwritable (c : Credential) (relations : List Relation) : Prop :=
  StopsIn c.NamesIn (fun r => ∃ items, (c.relation r).members? = some items ∧
    StopsIn Value.IsName (fun v => v.writable = false) items) relations

/-- Of two credentials whose relations list names, some relation of the second one cannot
be put behind that of the first. -/
def Unjoinable (base override : Credential) : Prop :=
  ∃ r, concatenate? (base.relation r) (override.relation r) = none

/-! ## Merging -/

/-- Merging two relations that list names fails only when they cannot be put together. -/
theorem mergeRelation_eq_error_iff {base override : Credential} (hb : base.ListsNames)
    (ho : override.ListsNames) (r : Relation) {f : Failure} :
    mergeRelation (base.relation r) (override.relation r) = .error f ↔
      f = .mismatch ∧ concatenate? (base.relation r) (override.relation r) = none := by
  unfold mergeRelation
  cases hjoin : concatenate? (base.relation r) (override.relation r) with
  | none => simp [orMismatch, bind, Except.bind, eq_comm]
  | some items =>
    obtain ⟨xs, ys, hx, hy, rfl⟩ := concatenate?_eq_some hjoin
    obtain ⟨xs', hx', hxnames⟩ := hb r
    obtain ⟨ys', hy', hynames⟩ := ho r
    cases hx.symm.trans hx'
    cases hy.symm.trans hy'
    have hkeys := Value.allHashable_of_names (List.forall_mem_append.mpr ⟨hxnames, hynames⟩)
    simp [orMismatch, bind, Except.bind, pure, Except.pure, hkeys]

theorem merge_eq_error {base override : Credential} {f : Failure}
    (h : base.merge override = .error f) :
    ∃ r, mergeRelation (base.relation r) (override.relation r) = .error f := by
  unfold merge at h
  rcases bind_eq_error_iff.mp h with h1 | ⟨_, -, h⟩
  · exact ⟨.implies, h1⟩
  rcases bind_eq_error_iff.mp h with h2 | ⟨_, -, h⟩
  · exact ⟨.impliedBy, h2⟩
  rcases bind_eq_error_iff.mp h with h3 | ⟨_, -, h⟩
  · exact ⟨.subrights, h3⟩
  rcases bind_eq_error_iff.mp h with h4 | ⟨_, -, h⟩
  · exact ⟨.subrightOf, h4⟩
  cases h

/-- Merging goes through unless two relations cannot be put together. -/
theorem surfaces_merge {base override : Credential} (hb : base.ListsNames)
    (ho : override.ListsNames) :
    Surfaces (fun f => f = .mismatch ∧ base.Unjoinable override) (base.merge override) where
  escaping f hf := by
    obtain ⟨rfl, r, hjoin⟩ := hf
    have hrelation := (mergeRelation_eq_error_iff hb ho r).mpr ⟨rfl, hjoin⟩
    cases hmerge : base.merge override with
    | ok m =>
      cases hrelation.symm.trans ((isMerge_of_merge hmerge).relations r)
    | error e =>
      obtain ⟨r', herror⟩ := merge_eq_error hmerge
      rw [((mergeRelation_eq_error_iff hb ho r').mp herror).1]
  surfacing f hf := by
    obtain ⟨r, herror⟩ := merge_eq_error hf
    obtain ⟨rfl, hjoin⟩ := (mergeRelation_eq_error_iff hb ho r).mp herror
    exact .inr ⟨rfl, r, hjoin⟩

end Credential

namespace Registry

/-! ## One declaration -/

/-- Every kept credential lists names. -/
def ListsNames (r : Registry) : Prop :=
  ∀ name c, r.find? name = some c → c.ListsNames

/-- How declaring a value fails when it is not refused. -/
inductive Trips (r : Registry) (v : Value) : Failure → Prop
  /-- A name has to be refused that cannot be written out. -/
  | name {c : Credential} (hc : Credential.ofValue? v = some c) (h : c.name.writable = false) :
    Trips r v .illFormed
  /-- A relation cannot be walked through. -/
  | unwalkable {c : Credential} (hc : Credential.ofValue? v = some c)
    (hname : Name.check r.entityType c.name = .ok ()) (h : c.Unwalkable Relation.all) :
    Trips r v .mismatch
  /-- A reference has to be refused that cannot be written out. -/
  | unwritable {c : Credential} (hc : Credential.ofValue? v = some c)
    (hname : Name.check r.entityType c.name = .ok ()) (h : c.Unwritable Relation.all) :
    Trips r v .illFormed
  /-- A relation cannot be put behind that of the credential that is kept under the name. -/
  | unjoinable {c old : Credential} (hc : Credential.ofValue? v = some c)
    (hname : Name.check r.entityType c.name = .ok ()) (hlists : c.ListsNames)
    (hold : r.find? c.name.word = some old) (h : old.Unjoinable c) : Trips r v .mismatch

/-- References of any kind are refused as configuration errors, unless a relation cannot
be walked through, or what is refused cannot be written out. -/
theorem surfaces_checkReferences {owner : Value} (howner : owner.writable = true) (c : Credential)
    (hname : c.name.writable = true) (relations : List Relation) :
    Surfaces (fun f => f = .mismatch ∧ c.Unwalkable relations ∨ Sticks (c.Unwritable relations) f)
      (checkReferences owner c relations) := by
  induction relations with
  | nil =>
    refine surfaces_ok.congr fun f => iff_of_false id ?_
    rintro (⟨-, h⟩ | ⟨-, h⟩) <;> exact not_stopsIn_nil h
  | cons r rest ih =>
    simp only [Credential.Unwalkable, Credential.Unwritable, stopsIn_cons]
    unfold checkReferences
    split
    · rename_i hnone
      have hnot : ¬ c.NamesIn r := by simp [Credential.NamesIn, hnone]
      exact surfaces_escaped.congr fun f => by simp [hnone, hnot, Sticks]
    · rename_i items hitems
      split
      · rename_i bad hfind
        obtain ⟨hbad, before, after, rfl, hbefore⟩ := List.find?_eq_some_iff_append.mp hfind
        have hnames : ∀ v ∈ before, v.IsName := fun v hv => by
          simpa [Value.IsName, ← Option.isSome_iff_ne_none] using hbefore v hv
        have hnoname : ¬ bad.IsName := by simpa [Value.IsName] using hbad
        have hnot : ¬ c.NamesIn r := by
          rintro ⟨items', hitems', hall⟩
          cases hitems.symm.trans hitems'
          exact hnoname (hall bad (by simp))
        -- what is refused is the first member that is no name
        have hstop : StopsIn Value.IsName (fun v => v.writable = false) (before ++ bad :: after) ↔
            bad.writable = false :=
          stopsIn_append_cons hnames hnoname fun v hv => by simp [hv.writable]
        refine (surfaces_refuse rfl).congr fun f => ?_
        simp [hitems, hnot, hstop, Sticks, Rejection.written, howner, hname]
      · rename_i hfind
        have hnames : ∀ v ∈ items, v.IsName := fun v hv => by
          have hv := List.find?_eq_none.mp hfind v hv
          simpa [Value.IsName, ← Option.isSome_iff_ne_none] using hv
        have hstop : ¬ StopsIn Value.IsName (fun v => v.writable = false) items := by
          rintro ⟨before, v, after, rfl, -, hv⟩
          cases (hnames v (by simp)).writable.symm.trans hv
        have hin : c.NamesIn r := ⟨items, hitems, hnames⟩
        exact ih.congr fun f => by
          simp [hitems, hstop, hin, Credential.Unwalkable, Credential.Unwritable]

/-- A value of any kind is accepted, or refused with a configuration error, unless it is a
credential whose name cannot be written out or whose relations cannot be checked. -/
theorem surfaces_accept {owner : Value} (howner : owner.writable = true) (v : Value) :
    Surfaces (fun f => ∃ c, Credential.ofValue? v = some c ∧
      (Sticks (c.name.writable = false) f ∨ Name.check owner c.name = .ok () ∧
        (f = .mismatch ∧ c.Unwalkable Relation.all ∨ Sticks (c.Unwritable Relation.all) f)))
      (accept owner v) := by
  unfold accept
  split
  · rename_i hnone
    exact (surfaces_refuse rfl).congr fun f => by simp [Sticks, Rejection.written, howner, hnone]
  · rename_i c hc
    have hcheck := (Name.rejectsUnless_check howner c.name).surfaces rfl
    have hafter : ∀ _ : Unit, Name.check owner c.name = .ok () → Surfaces _ _ := fun _ hname =>
      (surfaces_checkReferences howner c (Name.check_eq_ok_iff.mp hname).1.writable
        Relation.all).bind fun _ _ => surfaces_ok (a := (c.name.text?.getD "", c))
    refine (hcheck.bind fun u hname => hafter u hname).congr fun f => ?_
    simp [hc, Unique.exists_iff]

variable {r : Registry}

theorem surfaces_mergeOnto (h : r.ListsNames) (name : String) {c : Credential}
    (hc : c.ListsNames) :
    Surfaces (fun f => f = .mismatch ∧ ∃ old, r.find? name = some old ∧ old.Unjoinable c)
      (Credential.mergeOnto (r.find? name) c) := by
  cases hfind : r.find? name with
  | none => exact surfaces_ok.congr fun f => by simp
  | some old => exact (Credential.surfaces_merge (h name old hfind) hc).congr fun f => by simp

/-- **One value.** It is declared, or refused with a configuration error, unless the
registry trips over it. -/
theorem surfaces_add (h : r.ListsNames) (howner : r.entityType.writable = true) (v : Value) :
    Surfaces (r.Trips v) (r.add v).2.outcome := by
  rw [outcome_add]
  refine ((surfaces_accept howner v).bind fun e haccept =>
    surfaces_mergeOnto h e.1 (accept_eq_ok haccept).2.2).congr fun f => ?_
  simp only [Prod.exists, accept_eq_ok_iff]
  constructor
  · rintro (⟨c, hc, ⟨rfl, hname⟩ | ⟨hcheck, ⟨rfl, hwalk⟩ | ⟨rfl, hwrite⟩⟩⟩ |
      ⟨_, c, ⟨hc, hcheck, hlists, rfl⟩, rfl, old, hold, hjoin⟩)
    · exact .name hc hname
    · exact .unwalkable hc hcheck hwalk
    · exact .unwritable hc hcheck hwrite
    · exact .unjoinable hc hcheck hlists hold hjoin
  · rintro (⟨hc, hname⟩ | ⟨hc, hcheck, hwalk⟩ | ⟨hc, hcheck, hwrite⟩ |
      ⟨hc, hcheck, hlists, hold, hjoin⟩)
    · exact .inl ⟨_, hc, .inl ⟨rfl, hname⟩⟩
    · exact .inl ⟨_, hc, .inr ⟨hcheck, .inl ⟨rfl, hwalk⟩⟩⟩
    · exact .inl ⟨_, hc, .inr ⟨hcheck, .inr ⟨rfl, hwrite⟩⟩⟩
    · exact .inr ⟨_, _, ⟨hc, hcheck, hlists, rfl⟩, rfl, _, hold, hjoin⟩

/-- How declaring an item fails when it is not refused. -/
inductive ItemTrips (r : Registry) (item : Item) : Failure → Prop
  /-- A key has to be refused, and it or the name cannot be written out. -/
  | key {key : Value} {c : Credential} (hkey : item.key = some key)
    (hc : Credential.ofValue? item.value = some c) (hne : c.name.same key = false)
    (h : key.writable = false ∨ c.name.writable = false) : ItemTrips r item .illFormed
  | value {f : Failure} (hkey : checkKey r.entityType item = .ok ()) (h : r.Trips item.value f) :
    ItemTrips r item f

/-- A key is taken, or refused with a configuration error that may not be written out. -/
theorem surfaces_checkKey {owner : Value} (howner : owner.writable = true) (item : Item) :
    Surfaces (Sticks (∃ key c, item.key = some key ∧ Credential.ofValue? item.value = some c ∧
      c.name.same key = false ∧ (key.writable = false ∨ c.name.writable = false)))
      (checkKey owner item) := by
  unfold checkKey
  split
  · rename_i key c hkey hc
    split
    · rename_i hsame
      exact surfaces_ok.congr fun f => by simp [Sticks, hkey, hc, hsame]
    · rename_i hne
      refine (surfaces_refuse rfl).congr fun f => ?_
      simp [Sticks, hkey, hc, hne, Rejection.written, howner, or_comm]
  · rename_i hnone
    refine surfaces_ok.congr fun f => iff_of_false id ?_
    rintro ⟨-, key, c, hkey, hc, -⟩
    exact hnone key c hkey hc

/-- **One item.** It is declared, or refused with a configuration error, unless the registry
trips over it. -/
theorem surfaces_addItem (h : r.ListsNames) (howner : r.entityType.writable = true)
    (item : Item) : Surfaces (r.ItemTrips item) (r.addItem item).2.outcome := by
  rw [outcome_addItem]
  refine ((surfaces_checkKey howner item).guard (surfaces_add h howner item.value)).congr
    fun f => ?_
  constructor
  · rintro (⟨rfl, key, c, hkey, hc, hne, hwritable⟩ | ⟨hkey, htrips⟩)
    · exact .key hkey hc hne hwritable
    · exact .value hkey htrips
  · rintro (⟨hkey, hc, hne, hwritable⟩ | ⟨hkey, htrips⟩)
    · exact .inl ⟨rfl, _, _, hkey, hc, hne, hwritable⟩
    · exact .inr ⟨hkey, htrips⟩

/-! ## Collections -/

/-- Going through a collection, a registry takes items up to one that it trips over. -/
def TripsOver (r : Registry) (items : List Item) (f : Failure) : Prop :=
  ∃ before item after, items = before ++ item :: after ∧ (r.addAll before).2.outcome = .ok () ∧
    (r.addAll before).1.ItemTrips item f

theorem not_tripsOver_nil {f : Failure} : ¬ r.TripsOver [] f := by
  rintro ⟨before, item, after, heq, -⟩
  simp at heq

theorem tripsOver_cons {item : Item} {rest : List Item} {f : Failure} :
    r.TripsOver (item :: rest) f ↔ r.ItemTrips item f ∨
      ∃ kept, (r.addItem item).2.outcome = .ok kept ∧ (r.addItem item).1.TripsOver rest f := by
  constructor
  · rintro ⟨before, x, after, heq, hok, htrips⟩
    cases before with
    | nil =>
      cases heq
      exact .inl htrips
    | cons first before =>
      cases heq
      obtain ⟨f, hf⟩ | ⟨kept, r', hstep⟩ := addItem_cases r item
      · rw [(addAll_cons_of_error hf before).2] at hok
        cases hok
      · obtain ⟨hfinal, houtcome⟩ := addAll_cons_of_answers hstep before
        rw [hfinal] at htrips
        obtain ⟨hkept, rfl⟩ := hstep
        exact .inr ⟨kept, hkept, before, x, after, rfl, houtcome.symm.trans hok, htrips⟩
  · rintro (htrips | ⟨kept, hstep, before, x, after, rfl, hok, htrips⟩)
    · exact ⟨[], item, rest, rfl, rfl, htrips⟩
    · obtain ⟨hfinal, houtcome⟩ := addAll_cons_of_answers ⟨hstep, rfl⟩ before
      exact ⟨item :: before, x, after, rfl, houtcome.trans hok, hfinal ▸ htrips⟩

theorem Holds.listsNames {cs : List Credential} (h : r.Holds cs) : r.ListsNames :=
  fun _ _ hfind => h.names _ ((Entries.lookup_eq_some_iff h.nodup).mp hfind)

/-- A declared item leaves credentials that list names, under the same entity type. -/
theorem ListsNames.addItem (h : r.ListsNames) {item : Item} {kept : Credential} {r' : Registry}
    (hok : (addItem item).Answers r kept r') :
    r'.ListsNames ∧ r'.entityType = r.entityType := by
  obtain ⟨name, c, haccept, hmerge, rfl⟩ := add_answers_iff.mp (addItem_answers_iff.mp hok).2
  obtain ⟨-, -, hc⟩ := accept_eq_ok haccept
  have hkept : kept.ListsNames := by
    cases hfind : r.find? name with
    | none =>
      rw [hfind] at hmerge
      cases hmerge
      exact hc
    | some old =>
      rw [hfind] at hmerge
      exact (Credential.lists_merge hmerge (h name old hfind) hc).1
  refine ⟨fun other kept' hfind => ?_, rfl⟩
  rw [find?, credentials_put] at hfind
  by_cases hother : other = name
  · subst hother
    rw [Entries.lookup_put_self] at hfind
    cases hfind
    exact hkept
  · rw [Entries.lookup_put_of_ne hother] at hfind
    exact h other kept' hfind

/-- **A collection.** All of it is declared, or some of it is refused with a configuration
error, unless the registry trips over it. -/
theorem surfaces_addAll (h : r.ListsNames) (howner : r.entityType.writable = true)
    (items : List Item) : Surfaces (r.TripsOver items) (r.addAll items).2.outcome := by
  induction items generalizing r with
  | nil => exact surfaces_ok.congr fun f => iff_of_false id not_tripsOver_nil
  | cons item rest ih =>
    rw [outcome_addAll_cons]
    refine ((surfaces_addItem h howner item).bind fun kept hkept => ?_).congr
      fun f => tripsOver_cons.symm
    obtain ⟨hnames, hentity⟩ := h.addItem ⟨hkept, rfl⟩
    exact ih hnames (hentity ▸ howner)

end Registry

end Clearance
