import Clearance.Proofs.Declared

/-! Merging credentials.

A merged credential keeps its name, and each of its relations lists what either of the
two lists. Whoever declares a name several times gets the fold of these merges. -/
namespace Clearance.Credential

/-! ## Two credentials -/

theorem concatenate?_eq_some {a b : Value} {items : List Value}
    (h : concatenate? a b = some items) :
    ∃ xs ys, a.members? = some xs ∧ b.members? = some ys ∧ items = xs ++ ys := by
  unfold concatenate? at h
  split at h
  · exact ⟨_, _, rfl, rfl, (Option.some.inj h).symm⟩
  · exact ⟨_, _, rfl, rfl, (Option.some.inj h).symm⟩
  · rename_i xs ys
    refine ⟨_, _, rfl, rfl, ?_⟩
    rw [← List.map_append]
    exact (Option.some.inj h).symm
  · -- what is neither a sequence nor octets is a text, and yields its characters
    obtain ⟨s, hs, hrest⟩ := Option.bind_eq_some_iff.mp h
    obtain ⟨t, ht, hmembers⟩ := Option.bind_eq_some_iff.mp hrest
    have hchars : ∀ {v : Value} {s : String}, v.text? = some s →
        v.members? = some (s.toList.map fun c => Value.text (String.singleton c)) := by
      intro v s hv
      obtain ⟨hname, rfl⟩ := Value.text?_eq_some_iff.mp hv
      rcases Value.isName_cases hname with ⟨s, rfl⟩ | ⟨l, rfl⟩ <;> rfl
    refine ⟨_, _, hchars hs, hchars ht, ?_⟩
    rw [hchars rfl, String.toList_append, List.map_append] at hmembers
    exact (Option.some.inj hmembers).symm

theorem mergeRelation_eq_ok {a b v : Value} (h : mergeRelation a b = .ok v) :
    ∃ xs ys, a.members? = some xs ∧ b.members? = some ys ∧
      v = .tuple (Value.distinct (xs ++ ys)) := by
  unfold mergeRelation at h
  obtain ⟨items, hitems, hrest⟩ := bind_eq_ok_iff.mp h
  obtain ⟨xs, ys, hx, hy, rfl⟩ := concatenate?_eq_some (orMismatch_eq_ok_iff.mp hitems)
  refine ⟨xs, ys, hx, hy, ?_⟩
  split at hrest
  · exact (Except.ok.inj hrest).symm
  · cases hrest

/-- What one credential merged over another is: the name stays, texts that are set win, and the
relations are merged one by one. -/
structure IsMerge (base override m : Credential) : Prop where
  name : m.name = base.name
  label : m.label = prefer override.label base.label
  description : m.description = prefer override.description base.description
  relations : ∀ r, mergeRelation (base.relation r) (override.relation r) = .ok (m.relation r)

theorem isMerge_of_merge {base override m : Credential} (h : base.merge override = .ok m) :
    IsMerge base override m := by
  unfold merge at h
  obtain ⟨implies, h1, h⟩ := bind_eq_ok_iff.mp h
  obtain ⟨impliedBy, h2, h⟩ := bind_eq_ok_iff.mp h
  obtain ⟨subrights, h3, h⟩ := bind_eq_ok_iff.mp h
  obtain ⟨subrightOf, h4, h⟩ := bind_eq_ok_iff.mp h
  cases h
  refine ⟨rfl, rfl, rfl, ?_⟩
  intro r
  cases r with
  | implies => exact h1
  | impliedBy => exact h2
  | subrights => exact h3
  | subrightOf => exact h4

theorem within_merge {S : Value → Prop} {base override m : Credential}
    (h : base.merge override = .ok m) (hb : base.Within S) (ho : override.Within S) :
    m.Within S := by
  intro r items hitems v hv
  obtain ⟨xs, ys, hx, hy, hm⟩ := mergeRelation_eq_ok ((isMerge_of_merge h).relations r)
  rw [hm, Value.members?_tuple] at hitems
  cases hitems
  rcases List.mem_append.mp ((Value.distinctFrom_sublist [] _).subset hv) with hv | hv
  · exact hb r xs hx v hv
  · exact ho r ys hy v hv

/-- A merged credential lists what either of the two lists. -/
theorem lists_merge {base override m : Credential} (h : base.merge override = .ok m)
    (hb : base.ListsNames) (ho : override.ListsNames) :
    m.ListsNames ∧ ∀ r s, m.Lists r s ↔ base.Lists r s ∨ override.Lists r s := by
  have hrelation : ∀ r, ∃ xs ys, (base.relation r).members? = some xs ∧
      (override.relation r).members? = some ys ∧ (∀ v ∈ xs ++ ys, v.IsName) ∧
      (m.relation r).members? = some (Value.distinct (xs ++ ys)) := by
    intro r
    obtain ⟨xs, ys, hx, hy, hm⟩ := mergeRelation_eq_ok ((isMerge_of_merge h).relations r)
    obtain ⟨xs', hx', hxnames⟩ := hb r
    obtain ⟨ys', hy', hynames⟩ := ho r
    cases hx.symm.trans hx'
    cases hy.symm.trans hy'
    exact ⟨xs, ys, hx, hy, List.forall_mem_append.mpr ⟨hxnames, hynames⟩, by rw [hm]; rfl⟩
  constructor
  · intro r
    obtain ⟨xs, ys, -, -, hnames, hm⟩ := hrelation r
    exact ⟨_, hm, Value.isName_of_mem_distinct hnames⟩
  · intro r s
    obtain ⟨xs, ys, hx, hy, hnames, hm⟩ := hrelation r
    obtain ⟨hxnames, hynames⟩ := List.forall_mem_append.mp hnames
    rw [lists_iff hm (Value.isName_of_mem_distinct hnames), Value.mem_map_word_distinct hnames,
      List.map_append, List.mem_append, lists_iff hx hxnames, lists_iff hy hynames]

/-! ## All credentials of one name -/

/-- A credential over what stands under its name, if anything does. -/
def mergeOnto (kept : Option Credential) (c : Credential) : Except Failure Credential :=
  match kept with
  | none => .ok c
  | some old => old.merge c

/-- What credentials of one name come to, each merged over the ones before it. -/
def mergeAll (kept : Option Credential) : List Credential → Except Failure (Option Credential)
  | [] => .ok kept
  | c :: rest => do
    let merged ← mergeOnto kept c
    mergeAll (some merged) rest

theorem mergeAll_append (kept : Option Credential) (cs more : List Credential) :
    mergeAll kept (cs ++ more) = (mergeAll kept cs >>= fun merged => mergeAll merged more) := by
  induction cs generalizing kept with
  | nil => rfl
  | cons c rest ih =>
    rw [List.cons_append, mergeAll, mergeAll]
    cases mergeOnto kept c with
    | error f => rfl
    | ok merged => exact ih (some merged)

/-- The credentials of one name, in order. -/
def ofName (name : String) (cs : List Credential) : List Credential :=
  cs.filter fun c => c.name.text? = some name

theorem ofName_cons_self {name : String} {c : Credential} (h : c.name.text? = some name)
    (cs : List Credential) : ofName name (c :: cs) = c :: ofName name cs := by
  simp [ofName, h]

theorem ofName_cons_of_ne {name : String} {c : Credential} (h : c.name.text? ≠ some name)
    (cs : List Credential) : ofName name (c :: cs) = ofName name cs := by
  simp [ofName, h]

theorem ofName_append (name : String) (cs more : List Credential) :
    ofName name (cs ++ more) = ofName name cs ++ ofName name more :=
  List.filter_append ..

/-- Without two credentials of one name, their order does not show name by name. -/
theorem ofName_eq_of_perm {cs cs' : List Credential} (h : cs.Perm cs')
    (hnodup : (cs.map fun c => c.name.text?).Nodup) (name : String) :
    ofName name cs = ofName name cs' := by
  have hperm : (ofName name cs).Perm (ofName name cs') := h.filter _
  have hone : (ofName name cs).length ≤ 1 := by
    have hsub : ((ofName name cs).map fun c => c.name.text?).Nodup :=
      hnodup.sublist (List.filter_sublist.map _)
    have hall : ∀ n ∈ (ofName name cs).map (fun c => c.name.text?), n = some name := by
      simp only [ofName, List.forall_mem_map, List.mem_filter, decide_eq_true_eq]
      exact fun c hc => hc.2
    rw [List.eq_replicate_of_mem hall, List.nodup_replicate, List.length_map] at hsub
    exact hsub
  -- of at most one member there is only one order
  match hlist : ofName name cs, hone with
  | [], _ => exact (List.nil_perm.mp (hlist ▸ hperm)).symm
  | [c], _ => exact (List.perm_singleton.mp (hlist ▸ hperm).symm).symm

/-! ## What the fold of the merges says -/

/-- The texts that a relation lists, in order. -/
def words (c : Credential) (r : Relation) : List String :=
  ((c.relation r).members?.getD []).map Value.word

theorem words_of_members {c : Credential} {r : Relation} {items : List Value}
    (h : (c.relation r).members? = some items) : c.words r = items.map Value.word := by
  rw [words, h]
  rfl

/-- A merged relation is a tuple of the first occurrences among both lists. -/
theorem IsMerge.words {base override m : Credential} (h : IsMerge base override m)
    (hb : base.ListsNames) (ho : override.ListsNames) (r : Relation) :
    ∃ items, m.relation r = .tuple items ∧
      items.map Value.word = (base.words r ++ override.words r).eraseDups := by
  obtain ⟨xs, ys, hx, hy, hm⟩ := mergeRelation_eq_ok (h.relations r)
  obtain ⟨xs', hx', hxnames⟩ := hb r
  obtain ⟨ys', hy', hynames⟩ := ho r
  cases hx.symm.trans hx'
  cases hy.symm.trans hy'
  refine ⟨_, hm, ?_⟩
  rw [Value.map_word_distinct (List.forall_mem_append.mpr ⟨hxnames, hynames⟩), List.map_append,
    words_of_members hx, words_of_members hy]

/-- The last of some captions that is set, and null if none is. -/
def LastSet (vs : List (Caption Value)) (v : Caption Value) : Prop :=
  (v = .given .null ∧ ∀ w ∈ vs, w = .given .null) ∨
    ∃ before after, vs = before ++ v :: after ∧ v ≠ .given .null ∧ ∀ w ∈ after, w = .given .null

theorem lastSet_singleton (v : Caption Value) : LastSet [v] v := by
  by_cases hv : v = .given .null
  · exact .inl ⟨hv, by simpa using hv⟩
  · exact .inr ⟨[], [], rfl, hv, by simp⟩

theorem LastSet.prefer {vs : List (Caption Value)} {v : Caption Value} (h : LastSet vs v)
    (w : Caption Value) : LastSet (vs ++ [w]) (prefer w v) := by
  by_cases hw : w = .given .null
  · subst hw
    rcases h with ⟨hv, hall⟩ | ⟨before, after, rfl, hv, hall⟩
    · exact .inl ⟨hv, List.forall_mem_append.mpr ⟨hall, by simp⟩⟩
    · exact .inr ⟨before, after ++ [.given .null], by simp [Credential.prefer], hv,
        List.forall_mem_append.mpr ⟨hall, by simp⟩⟩
  · have hset : Credential.prefer w v = w := by
      unfold Credential.prefer
      split
      · exact absurd rfl hw
      · rfl
    rw [hset]
    exact .inr ⟨vs, [], rfl, hw, by simp⟩

/-- What credentials come to, each merged over the ones before it: the name of the first one, of
each text the last that is set, and in each relation what all of them list, the first occurrence
of every text. A credential that nothing is merged over stays as it is. -/
structure FoldsTo (cs : List Credential) (kept : Credential) : Prop where
  name : cs.head?.map Credential.name = some kept.name
  label : LastSet (cs.map Credential.label) kept.label
  description : LastSet (cs.map Credential.description) kept.description
  names : kept.ListsNames
  relations : cs = [kept] ∨ ∀ r, ∃ items, kept.relation r = .tuple items ∧
    items.map Value.word = (cs.flatMap fun c => c.words r).eraseDups

theorem foldsTo_singleton {c : Credential} (h : c.ListsNames) : FoldsTo [c] c :=
  ⟨rfl, lastSet_singleton c.label, lastSet_singleton c.description, h, .inl rfl⟩

/-- **One more credential.** -/
theorem FoldsTo.merge {cs : List Credential} {old c kept : Credential} (h : FoldsTo cs old)
    (hc : c.ListsNames) (hok : old.merge c = .ok kept) : FoldsTo (cs ++ [c]) kept := by
  have hmerge := isMerge_of_merge hok
  refine ⟨?_, ?_, ?_, (lists_merge hok h.names hc).1, .inr fun r => ?_⟩
  · rw [hmerge.name, ← h.name]
    cases cs with
    | nil => cases h.name
    | cons first rest => rfl
  · rw [hmerge.label, List.map_append]
    exact h.label.prefer c.label
  · rw [hmerge.description, List.map_append]
    exact h.description.prefer c.description
  · obtain ⟨items, hitems, hwords⟩ := hmerge.words h.names hc r
    refine ⟨items, hitems, ?_⟩
    rw [hwords, List.flatMap_append, List.flatMap_singleton]
    rcases h.relations with rfl | hmerged
    · rw [List.flatMap_singleton]
    · obtain ⟨earlier, hearlier, hfirst⟩ := hmerged r
      have hold : old.words r = earlier.map Value.word :=
        words_of_members (by rw [hearlier, Value.members?_tuple])
      rw [hold, hfirst, Value.eraseDups_append_eraseDups]

/-- **Several more**, each merged over the outcome of the one before. -/
theorem FoldsTo.mergeAll {front rest : List Credential} {old kept : Credential}
    (h : FoldsTo front old) (hrest : ∀ c ∈ rest, c.ListsNames)
    (hok : mergeAll (some old) rest = .ok (some kept)) : FoldsTo (front ++ rest) kept := by
  induction rest generalizing front old with
  | nil =>
    cases hok
    rwa [List.append_nil]
  | cons c rest ih =>
    rw [List.forall_mem_cons] at hrest
    obtain ⟨merged, hmerged, hok⟩ := bind_eq_ok_iff.mp hok
    rw [List.append_cons]
    exact ih (h.merge hrest.1 hmerged) hrest.2 hok

theorem foldsTo_of_mergeAll {cs : List Credential} {kept : Credential}
    (h : ∀ c ∈ cs, c.ListsNames) (hok : mergeAll none cs = .ok (some kept)) : FoldsTo cs kept := by
  cases cs with
  | nil => cases hok
  | cons c rest =>
    rw [List.forall_mem_cons] at h
    exact (foldsTo_singleton h.1).mergeAll h.2 hok

/-! ## Plain texts -/

/-- A credential whose name and members are plain texts. -/
def Texts (c : Credential) : Prop :=
  c.name.IsText ∧ c.Within Value.IsText

theorem texts_ofNames (name : String) (label description : Option (Caption String))
    (implies impliedBy subrights subrightOf : List String) :
    (ofNames name label description implies impliedBy subrights subrightOf).Texts := by
  have htuple : ∀ (names : List String) (items : List Value),
      (Value.tupleOfNames names).members? = some items → ∀ v ∈ items, v.IsText := by
    intro names items hitems
    cases hitems
    simp [Value.IsText]
  refine ⟨⟨name, rfl⟩, ?_⟩
  intro r
  cases r with
  | implies => exact htuple implies
  | impliedBy => exact htuple impliedBy
  | subrights => exact htuple subrights
  | subrightOf => exact htuple subrightOf

end Clearance.Credential
