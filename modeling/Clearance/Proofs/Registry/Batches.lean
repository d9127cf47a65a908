import Clearance.Proofs.Registry.Adding

/-! What a collection leaves under each name.

Declaring a collection treats every name on its own: what ends up under a name is what
the accepted credentials of that name merge to, one over the other, on top of what was
there (`find?_addAll`), and the collection is accepted exactly when every item is and
these merges go through (`addAll_ok_iff`). So two collections that differ only in how
they interleave different names leave the same table (`perm_of_rearranged`). -/
namespace Clearance.Registry

variable {r : Registry}

/-- An item that a registry takes: it stands under its name, and it is an acceptable
credential. -/
def Admitted (owner : Value) (item : Item) : Prop :=
  checkKey owner item = .ok () ∧ ∃ e, accept owner item.value = .ok e

/-- The merges under every name before and after one admitted credential. -/
theorem mergeAll_ofName_cons {name : String} {c kept : Credential}
    (hc : c.name.text? = some name) (hkept : Credential.mergeOnto (r.find? name) c = .ok kept)
    (cs : List Credential) (other : String) :
    Credential.mergeAll (r.find? other) (Credential.ofName other (c :: cs)) =
      Credential.mergeAll (List.lookup other (Entries.put name kept r.credentials))
        (Credential.ofName other cs) := by
  -- the credential is the next one under its own name, and invisible under every other
  by_cases hother : other = name
  · subst hother
    rw [Credential.ofName_cons_self hc, Entries.lookup_put_self, Credential.mergeAll, hkept]
    rfl
  · have hne : c.name.text? ≠ some other := by
      rw [hc]
      exact fun heq => hother (Option.some.inj heq).symm
    rw [Credential.ofName_cons_of_ne hne, Entries.lookup_put_of_ne hother]
    rfl

/-- **What a collection leaves.** Under every name stands what the credentials of that
name merge to, over what stood there. -/
theorem find?_addAll {items : List Item} (hok : (r.addAll items).2.outcome = .ok ())
    (name : String) :
    Credential.mergeAll (r.find? name) (Credential.ofName name (credentialsOf items)) =
      .ok ((r.addAll items).1.find? name) := by
  induction items generalizing r with
  | nil => rfl
  | cons item rest ih =>
    obtain ⟨f, hf⟩ | ⟨kept, r', hstep⟩ := addItem_cases r item
    · rw [(addAll_cons_of_error hf rest).2] at hok
      cases hok
    · obtain ⟨hfinal, houtcome⟩ := addAll_cons_of_answers hstep rest
      obtain ⟨own, c, haccept, hmerge, rfl⟩ := add_answers_iff.mp (addItem_answers_iff.mp hstep).2
      rw [credentialsOf_cons haccept,
        mergeAll_ofName_cons (accept_eq_ok haccept).2.1 hmerge, hfinal]
      exact ih (houtcome.symm.trans hok)

/-- **When a collection is accepted.** Every item is admitted, and under every name the
credentials of that name merge. -/
theorem addAll_ok_iff {items : List Item} :
    (r.addAll items).2.outcome = .ok () ↔ (∀ item ∈ items, Admitted r.entityType item) ∧
      ∀ name, ∃ kept, Credential.mergeAll (r.find? name)
        (Credential.ofName name (credentialsOf items)) = .ok kept := by
  constructor
  · intro hok
    refine ⟨?_, fun name => ⟨_, find?_addAll hok name⟩⟩
    induction items generalizing r with
    | nil => simp
    | cons item rest ih =>
      obtain ⟨f, hf⟩ | ⟨kept, r', hstep⟩ := addItem_cases r item
      · rw [(addAll_cons_of_error hf rest).2] at hok
        cases hok
      · obtain ⟨hkey, hadd⟩ := addItem_answers_iff.mp hstep
        obtain ⟨own, c, haccept, -, rfl⟩ := add_answers_iff.mp hadd
        rw [(addAll_cons_of_answers hstep rest).2] at hok
        have hrest := ih hok
        exact List.forall_mem_cons.mpr ⟨⟨hkey, _, haccept⟩, hrest⟩
  · rintro ⟨hadmitted, hmerges⟩
    induction items generalizing r with
    | nil => rfl
    | cons item rest ih =>
      rw [List.forall_mem_cons] at hadmitted
      obtain ⟨⟨hkey, ⟨own, c⟩, haccept⟩, hrest⟩ := hadmitted
      have hname := (accept_eq_ok haccept).2.1
      rw [credentialsOf_cons haccept] at hmerges
      -- the merges of its own name show that the first item goes through
      obtain ⟨final, hfinal⟩ := hmerges own
      rw [Credential.ofName_cons_self hname, Credential.mergeAll] at hfinal
      obtain ⟨kept, hkept, -⟩ := bind_eq_ok_iff.mp hfinal
      have hadd := add_answers_iff.mpr ⟨own, c, haccept, hkept, rfl⟩
      rw [(addAll_cons_of_answers (addItem_answers_iff.mpr ⟨hkey, hadd⟩) rest).2]
      refine ih hrest fun name => ?_
      obtain ⟨merged, hmerged⟩ := hmerges name
      rw [mergeAll_ofName_cons hname hkept] at hmerged
      exact ⟨merged, hmerged⟩

/-! ## Collections in another order -/

/-- Two collections of the same items, in which the credentials of each name stand in
the same order. -/
structure Rearranged (items items' : List Item) : Prop where
  perm : items.Perm items'
  ofName : ∀ name, Credential.ofName name (credentialsOf items) =
    Credential.ofName name (credentialsOf items')

theorem Rearranged.symm {items items' : List Item} (h : Rearranged items items') :
    Rearranged items' items :=
  ⟨h.perm.symm, fun name => (h.ofName name).symm⟩

/-- A list of credentials may be written in any order if no name is there twice. -/
theorem rearranged_unkeyed {cs cs' : List Credential} (h : cs.Perm cs')
    (hnodup : (cs.map fun c => c.name.text?).Nodup) : Rearranged (unkeyed cs) (unkeyed cs') where
  perm := h.map _
  ofName name := by
    rw [credentialsOf_unkeyed, credentialsOf_unkeyed]
    exact Credential.ofName_eq_of_perm h hnodup name

/-- **Order does not matter across names.** A rearranged collection is accepted as well,
and the same credentials stand under the same names. -/
theorem perm_of_rearranged {items items' : List Item} (h : Rearranged items items')
    (hstart : (Entries.keys r.credentials).Nodup)
    (hok : (r.addAll items).2.outcome = .ok ()) :
    (r.addAll items').2.outcome = .ok () ∧
      (r.addAll items).1.credentials.Perm (r.addAll items').1.credentials := by
  have hok' : (r.addAll items').2.outcome = .ok () := by
    obtain ⟨hadmitted, hmerges⟩ := addAll_ok_iff.mp hok
    refine addAll_ok_iff.mpr ⟨fun item hi => hadmitted item (h.perm.mem_iff.mpr hi), ?_⟩
    intro name
    rw [← h.ofName]
    exact hmerges name
  refine ⟨hok', ?_⟩
  refine Entries.perm_of_lookup (nodup_keys_addAll hstart items)
    (nodup_keys_addAll hstart items') fun name => ?_
  have hmerge := find?_addAll hok name
  rw [h.ofName, find?_addAll hok' name] at hmerge
  exact (Except.ok.inj hmerge).symm

end Clearance.Registry
