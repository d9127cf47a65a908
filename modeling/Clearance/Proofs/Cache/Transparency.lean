import Clearance.Cache
import Clearance.Proofs.Change
import Clearance.Proofs.Declaration.Build

/-! A cache answers what building would.

Callers get, peek at and invalidate policies in any order. Every entry that a cache
holds was compiled by one of the gets before (`Compiled`), from a declaration with the
fingerprint of the entry; fingerprints determine what proper declarations say, so whoever is
answered with the entry is answered with the rules of its own declaration. They do not tell
a character from its two halves (`get_tornSmile`). -/
namespace Clearance.PolicyCache

/-! ## Calls -/

/-- What callers ask of a cache. -/
inductive Call where
  | get (d : Declaration) (hooks : Option HookTable)
  | peek (entityType : String)
  | invalidate (entityType : Option String)

/-- A call whose declaration is as it is promised to be. -/
def Call.Proper : Call → Prop
  | .get d _ => d.Proper
  | _ => True

/-- Whether a call is about an entity type; invalidating all entries is about every one. -/
def Call.Concerns (e : String) : Call → Prop
  | .get d _ => d.entityType = e
  | .peek e' => e' = e
  | .invalidate none => True
  | .invalidate (some e') => e' = e

/-- A cache as a call leaves it, however the call ends. -/
def after (c : PolicyCache) : Call → PolicyCache
  | .get d hooks => (get d hooks c).1
  | .peek _ => c
  | .invalidate e => c.invalidate e

/-- A new cache after some calls. -/
def run (settings : Option Settings) (calls : List Call) : PolicyCache :=
  calls.foldl after { settings }

/-- Whether the entry of the entity type of a declaration has its fingerprint. -/
def fresh (c : PolicyCache) (d : Declaration) : Bool :=
  (c.peek d.entityType).any fun entry => entry.fingerprint = d.fingerprint

/-- The policy that a call builds, if it comes to that. -/
def built? (c : PolicyCache) : Call → Option Policy
  | .get d hooks => if c.fresh d then none else (d.build hooks c.settings).outcome.toOption
  | _ => none

/-- The policies that calls build, one after another. -/
def built (c : PolicyCache) : List Call → List Policy
  | [] => []
  | call :: rest => (c.built? call).toList ++ (c.after call).built rest

variable {c : PolicyCache} {settings : Option Settings}

theorem run_append (settings : Option Settings) (calls more : List Call) :
    run settings (calls ++ more) = more.foldl after (run settings calls) :=
  List.foldl_append

theorem built_append (calls more : List Call) :
    c.built (calls ++ more) = c.built calls ++ (calls.foldl after c).built more := by
  induction calls generalizing c with
  | nil => rfl
  | cons call rest ih =>
    rw [List.cons_append, built, built, ih, List.append_assoc]
    rfl

/-! ## One get -/

theorem fresh_iff {d : Declaration} : c.fresh d = true ↔
    ∃ entry, c.peek d.entityType = some entry ∧ entry.fingerprint = d.fingerprint := by
  simp [fresh, Option.any_eq_true]

/-- What a policy of a declaration is kept as. -/
def filed (c : PolicyCache) (d : Declaration) (p : Policy) : CacheEntry :=
  ⟨d.fingerprint, p, c.compileCount⟩

/-- The cache once a policy of a declaration is stored and counted. -/
def keeping (c : PolicyCache) (d : Declaration) (p : Policy) : PolicyCache :=
  (c.store d.entityType (c.filed d p)).count

theorem peek_keeping (c : PolicyCache) (d : Declaration) (p : Policy) :
    (c.keeping d p).peek d.entityType = some (c.filed d p) :=
  Entries.lookup_put_self _ _ _

/-- What is built is stored and counted, and handed out. -/
theorem compile_of_ok {d : Declaration} {hooks : Option HookTable} {p : Policy}
    (h : (d.build hooks c.settings).outcome = .ok p) :
    compile d hooks c =
      (c.keeping d p, ⟨(d.build hooks c.settings).events, .ok (c.filed d p)⟩) := by
  have hbuild : ((Change.ofRun (d.build hooks c.settings) : Change PolicyCache _) c).2.outcome =
    .ok p := h
  have hsteps := Change.andThen_of_ok hbuild fun p =>
    (Change.modify (·.store d.entityType (c.filed d p))).andThen fun _ =>
      (Change.modify count).andThen fun _ => Change.ofRun (Run.answer (c.filed d p))
  simp only [Change.modify_andThen, Change.ofRun_apply] at hsteps
  exact hsteps.trans (by simp [keeping, Run.answer])

/-- What cannot be built leaves no trace. -/
theorem compile_of_error {d : Declaration} {hooks : Option HookTable} {f : Failure}
    (h : (d.build hooks c.settings).outcome = .error f) :
    compile d hooks c = (c, ⟨(d.build hooks c.settings).events, .error f⟩) := by
  have hbuild : ((Change.ofRun (d.build hooks c.settings) : Change PolicyCache _) c).2.outcome =
    .error f := h
  exact Change.andThen_of_error hbuild _

/-- A fresh entry is handed out; nothing is built and nothing is logged. -/
theorem get_of_fresh {d : Declaration} {entry : CacheEntry}
    (hpeek : c.peek d.entityType = some entry) (h : entry.fingerprint = d.fingerprint)
    (hooks : Option HookTable) : get d hooks c = (c, Run.answer entry) := by
  simp [get, hpeek, h]

/-- Otherwise the declaration is compiled, after a notice if an older entry is replaced. -/
theorem get_of_not_fresh {d : Declaration} (h : c.fresh d = false) (hooks : Option HookTable) :
    ∃ notices, get d hooks c = ((compile d hooks c).1,
      ⟨notices ++ (compile d hooks c).2.events, (compile d hooks c).2.outcome⟩) := by
  unfold get
  rw [Change.bind_eq, Change.current_andThen]
  cases hpeek : c.peek d.entityType with
  | none => exact ⟨[], rfl⟩
  | some entry =>
    have hstale : entry.fingerprint ≠ d.fingerprint := by
      intro heq
      rw [fresh_iff.mpr ⟨entry, hpeek, heq⟩] at h
      cases h
    simp only [if_neg hstale]
    exact ⟨_, rfl⟩

/-- **One get.** It fails exactly when it has to build and cannot, and else hands out an
entry with the fingerprint of its declaration that the cache holds from then on. -/
theorem get_ok {d : Declaration} {hooks : Option HookTable} {entry : CacheEntry}
    (h : (get d hooks c).2.outcome = .ok entry) :
    (get d hooks c).1.peek d.entityType = some entry ∧ entry.fingerprint = d.fingerprint := by
  cases hfresh : c.fresh d with
  | true =>
    obtain ⟨kept, hpeek, hfingerprint⟩ := fresh_iff.mp hfresh
    rw [get_of_fresh hpeek hfingerprint] at h ⊢
    cases h
    exact ⟨hpeek, hfingerprint⟩
  | false =>
    obtain ⟨notices, hget⟩ := get_of_not_fresh hfresh hooks
    rw [hget] at h ⊢
    cases hbuild : (d.build hooks c.settings).outcome with
    | error f =>
      rw [compile_of_error hbuild] at h
      cases h
    | ok p =>
      rw [compile_of_ok hbuild] at h ⊢
      cases h
      exact ⟨c.peek_keeping d p, rfl⟩

/-- A get changes the cache only when it builds, and then keeps what it built. -/
theorem after_get (d : Declaration) (hooks : Option HookTable) :
    (c.built? (.get d hooks) = none ∧ c.after (.get d hooks) = c) ∨
    ∃ p, c.built? (.get d hooks) = some p ∧ c.fresh d = false ∧
      (d.build hooks c.settings).outcome = .ok p ∧ c.after (.get d hooks) = c.keeping d p := by
  cases hfresh : c.fresh d with
  | true =>
    obtain ⟨entry, hpeek, hfingerprint⟩ := fresh_iff.mp hfresh
    refine .inl ⟨by simp [built?, hfresh], ?_⟩
    rw [after, get_of_fresh hpeek hfingerprint]
  | false =>
    obtain ⟨notices, hget⟩ := get_of_not_fresh hfresh hooks
    cases hbuild : (d.build hooks c.settings).outcome with
    | error f =>
      refine .inl ⟨by simp [built?, hfresh, hbuild, Except.toOption], ?_⟩
      rw [after, hget, compile_of_error hbuild]
    | ok p =>
      refine .inr ⟨p, by simp [built?, hfresh, hbuild, Except.toOption], rfl, rfl, ?_⟩
      rw [after, hget, compile_of_ok hbuild]

/-- A get that has to build fails as building does, or keeps and hands out what is built. -/
theorem builds_of_not_fresh {d : Declaration} (h : c.fresh d = false)
    (hooks : Option HookTable) :
    ∃ notices, (get d hooks c).2.events = notices ++ (d.build hooks c.settings).events ∧
      (get d hooks c).2.outcome = (d.build hooks c.settings).outcome.map (c.filed d) ∧
      ∀ p, (d.build hooks c.settings).outcome = .ok p → (get d hooks c).1 = c.keeping d p := by
  obtain ⟨notices, hget⟩ := get_of_not_fresh h hooks
  rw [hget]
  refine ⟨notices, ?_⟩
  cases hbuild : (d.build hooks c.settings).outcome with
  | error f =>
    rw [compile_of_error hbuild]
    exact ⟨rfl, rfl, fun p hp => by cases hp⟩
  | ok p =>
    rw [compile_of_ok hbuild]
    refine ⟨rfl, rfl, fun p' hp => ?_⟩
    cases hp
    rfl

/-- A get that fails leaves all entries and the count as they were. -/
theorem get_error {d : Declaration} {hooks : Option HookTable} {f : Failure}
    (h : (get d hooks c).2.outcome = .error f) : (get d hooks c).1 = c := by
  cases hfresh : c.fresh d with
  | true =>
    obtain ⟨entry, hpeek, hfingerprint⟩ := fresh_iff.mp hfresh
    rw [get_of_fresh hpeek hfingerprint]
  | false =>
    obtain ⟨notices, hget⟩ := get_of_not_fresh hfresh hooks
    rw [hget] at h ⊢
    cases hbuild : (d.build hooks c.settings).outcome with
    | error f => rw [compile_of_error hbuild]
    | ok p =>
      rw [compile_of_ok hbuild] at h
      cases h

/-! ## One call -/

theorem settings_after (call : Call) : (c.after call).settings = c.settings := by
  cases call with
  | get d hooks =>
    rcases after_get (c := c) d hooks with ⟨-, h⟩ | ⟨p, -, -, -, h⟩
    · rw [h]
    · rw [h]
      rfl
  | peek e => rfl
  | invalidate e => cases e <;> rfl

/-- A call counts what it builds. -/
theorem compileCount_after (call : Call) :
    (c.after call).compileCount = c.compileCount + (c.built? call).toList.length := by
  cases call with
  | get d hooks =>
    rcases after_get (c := c) d hooks with ⟨hnone, h⟩ | ⟨p, hsome, -, -, h⟩
    · rw [h, hnone]
      rfl
    · rw [h, hsome]
      rfl
  | peek e => rfl
  | invalidate e => cases e <;> rfl

/-- **Frame.** A call about other entity types leaves the entry of this one alone. -/
theorem peek_after {e : String} {call : Call} (h : ¬ call.Concerns e) :
    (c.after call).peek e = c.peek e := by
  cases call with
  | get d hooks =>
    rcases after_get (c := c) d hooks with ⟨-, hafter⟩ | ⟨p, -, -, -, hafter⟩
    · rw [hafter]
    · rw [hafter]
      exact Entries.lookup_put_of_ne (Ne.symm h) _ _
  | peek e' => rfl
  | invalidate e' =>
    cases e' with
    | none => exact absurd trivial h
    | some e' => exact Entries.lookup_erase_of_ne (Ne.symm h) _

/-- What a cache holds after a call it held before, or the call built it. -/
theorem peek_after_cases {e : String} {call : Call} {entry : CacheEntry}
    (h : (c.after call).peek e = some entry) :
    c.peek e = some entry ∨ ∃ d hooks p, call = .get d hooks ∧
      d.entityType = e ∧ c.fresh d = false ∧ (d.build hooks c.settings).outcome = .ok p ∧
      entry = ⟨d.fingerprint, p, c.compileCount⟩ := by
  -- only a call about the entity type can have changed its entry
  by_cases hconcerns : call.Concerns e
  · cases call with
    | get d hooks =>
      rcases after_get (c := c) d hooks with ⟨-, hafter⟩ | ⟨p, -, hfresh, hbuild, hafter⟩
      · exact .inl (hafter ▸ h)
      · cases hconcerns
        rw [hafter, peek_keeping] at h
        exact .inr ⟨d, hooks, p, rfl, rfl, hfresh, hbuild, (Option.some.inj h).symm⟩
    | peek e' => exact .inl h
    | invalidate e' =>
      cases e' with
      | none => cases h
      | some e' =>
        cases hconcerns
        rw [after, invalidate, peek, Entries.lookup_erase_self] at h
        cases h
  · exact .inl (peek_after hconcerns ▸ h)

/-! ## Runs -/

theorem settings_run (settings : Option Settings) (calls : List Call) :
    (run settings calls).settings = settings := by
  induction calls using List.reverseRecOn with
  | nil => rfl
  | append_singleton calls call ih =>
    rw [run_append]
    exact (settings_after call).trans ih

/-- The count of a cache is the number of policies that were built. -/
theorem compileCount_run (settings : Option Settings) (calls : List Call) :
    (run settings calls).compileCount =
      (built { settings } calls).length := by
  induction calls using List.reverseRecOn with
  | nil => rfl
  | append_singleton calls call ih =>
    rw [run_append, List.foldl_cons, List.foldl_nil, compileCount_after, built_append,
      List.length_append, ih, built, built, List.append_nil]
    rfl

theorem peek_run_append {e : String} {more : List Call} (h : ∀ call ∈ more, ¬ call.Concerns e)
    (calls : List Call) : (run settings (calls ++ more)).peek e = (run settings calls).peek e := by
  induction more using List.reverseRecOn with
  | nil => rw [List.append_nil]
  | append_singleton more call ih =>
    rw [List.forall_mem_append, List.forall_mem_singleton] at h
    rw [← List.append_assoc, run_append]
    exact (peek_after h.2).trans (ih h.1)

/-- The get that compiled an entry: it found no fresh entry, building its declaration
answered with the policy of the entry, and that policy has the hooks of this very get. -/
structure CompiledBy (settings : Option Settings) (before : List Call) (d : Declaration)
    (hooks : Option HookTable) (entry : CacheEntry) : Prop where
  stale : (run settings before).fresh d = false
  build : (d.build hooks settings).outcome = .ok entry.policy
  hooks : entry.policy.hooks = (Policy.policyHooks (d.plan hooks settings)).freeze
  fingerprint : entry.fingerprint = d.fingerprint
  serial : entry.serial = (run settings before).compileCount

/-- An entry of an entity type was compiled by one of some calls. -/
def Compiled (settings : Option Settings) (calls : List Call) (e : String) (entry : CacheEntry) :
    Prop :=
  ∃ before d hooks later, calls = before ++ .get d hooks :: later ∧
    d.entityType = e ∧ CompiledBy settings before d hooks entry

/-- **Where entries come from.** Whatever a cache holds was compiled by a call. -/
theorem compiled_of_peek {calls : List Call} {e : String} {entry : CacheEntry}
    (h : (run settings calls).peek e = some entry) : Compiled settings calls e entry := by
  -- the last call filed the entry, or it was there already and an earlier one did
  induction calls using List.reverseRecOn with
  | nil => cases h
  | append_singleton calls call ih =>
    rw [run_append] at h
    rcases peek_after_cases h with hold | ⟨d, hooks, p, rfl, he, hfresh, hbuild, rfl⟩
    · obtain ⟨before, d, hooks, later, rfl, he, hcompiled⟩ := ih hold
      exact ⟨before, d, hooks, later ++ [call], by simp, he, hcompiled⟩
    · rw [settings_run] at hbuild
      exact ⟨calls, d, hooks, [], rfl, he, hfresh, hbuild,
        Declaration.hooks_of_build hbuild, rfl, rfl⟩

/-! ## Transparency -/

/-- What callers of a cache can rely on after some calls. -/
structure Transparent (settings : Option Settings) (calls : List Call) (c : PolicyCache) :
    Prop where
  /-- Whoever is handed a policy could have built one with the same rules, where nobody has
  asked about declarations with halves of characters. -/
  rules : (∀ call ∈ calls, call.Proper) → ∀ d, d.Proper → ∀ hooks entry,
    (get d hooks c).2.outcome = .ok entry →
    ∀ hooks', ∃ p, (d.build hooks' settings).outcome = .ok p ∧ entry.policy.SameRules p
  /-- The policy stems from a get for this entity type, this one or an earlier one. -/
  origin : ∀ d hooks entry, (get d hooks c).2.outcome = .ok entry →
    Compiled settings (calls ++ [.get d hooks]) d.entityType entry
  /-- An entry with the fingerprint of a declaration is handed out as it is. -/
  reuses : ∀ d hooks entry, c.peek d.entityType = some entry →
    entry.fingerprint = d.fingerprint → get d hooks c = (c, Run.answer entry)
  /-- Without such an entry the declaration is built, and what is built is kept. -/
  builds : ∀ d hooks, (∀ entry, c.peek d.entityType = some entry →
      entry.fingerprint ≠ d.fingerprint) →
    ∃ notices, (get d hooks c).2.events = notices ++ (d.build hooks settings).events ∧
      (get d hooks c).2.outcome = (d.build hooks settings).outcome.map (c.filed d) ∧
      ∀ p, (d.build hooks settings).outcome = .ok p → (get d hooks c).1 = c.keeping d p
  /-- The count is the number of policies that were built. -/
  count : c.compileCount = (built { settings } calls).length
  /-- Invalidating does not change the count. -/
  uncounted : ∀ e, (c.invalidate e).compileCount = c.compileCount
  /-- A get that fails leaves all entries and the count as they were. -/
  failure : ∀ d hooks f, (get d hooks c).2.outcome = .error f →
    run settings (calls ++ [.get d hooks]) = c
  /-- Calls about other entity types leave the entry of an entity type alone. -/
  frame : ∀ e more, (∀ call ∈ more, ¬ call.Concerns e) →
    (run settings (calls ++ more)).peek e = c.peek e

/-- **The cache is transparent.** Whatever was asked of a cache before, callers can rely
on it. -/
theorem run_transparent (settings : Option Settings) (calls : List Call) :
    Transparent settings calls (run settings calls) := by
  have hsettings := settings_run settings calls
  have horigin : ∀ d hooks entry, (get d hooks (run settings calls)).2.outcome = .ok entry →
      Compiled settings (calls ++ [.get d hooks]) d.entityType entry := by
    intro d hooks entry hget
    refine compiled_of_peek ?_
    rw [run_append, List.foldl_cons, List.foldl_nil]
    exact (get_ok hget).1
  refine
    { rules := ?_
      origin := horigin
      reuses := fun d hooks entry hpeek h => get_of_fresh hpeek h hooks
      builds := ?_
      count := compileCount_run settings calls
      uncounted := fun e => by cases e <;> rfl
      failure := ?_
      frame := fun e more h => peek_run_append h calls }
  · intro hcalls d hd hooks entry hget hooks'
    obtain ⟨before, d₀, hooks₀, later, heq, -, hcompiled⟩ := horigin d hooks entry hget
    have hd₀ : d₀.Proper := by
      have hmem : Call.get d₀ hooks₀ ∈ calls ++ [.get d hooks] := by simp [heq]
      rcases List.mem_append.mp hmem with hbefore | hlast
      · exact hcalls _ hbefore
      · cases List.mem_singleton.mp hlast
        exact hd
    -- the declaration that was compiled has the same fingerprint, hence the same content
    have hcontent : d₀.SameContent d :=
      Declaration.sameContent_of_fingerprint_eq hd₀ hd
        (hcompiled.fingerprint.symm.trans (get_ok hget).2)
    exact Declaration.build_of_sameContent hd₀ hcontent hcompiled.build hooks'
  · intro d hooks h
    have hstale : (run settings calls).fresh d = false := by
      rw [← Bool.not_eq_true, fresh_iff]
      rintro ⟨entry, hpeek, hfingerprint⟩
      exact h entry hpeek hfingerprint
    have hbuilds := builds_of_not_fresh hstale hooks
    rwa [hsettings] at hbuilds
  · intro d hooks f hget
    rw [run_append, List.foldl_cons, List.foldl_nil]
    exact get_error hget

/-- Two credentials of notes, the one for viewing first. -/
def viewThenEdit : Declaration where
  entityType := "Note"
  credentials := [("view", none), ("edit", none)]
  includeDefaults := false

/-- The same credentials, written the other way round. -/
def editThenView : Declaration :=
  { viewThenEdit with credentials := [("edit", none), ("view", none)] }

theorem proper_viewThenEdit : viewThenEdit.Proper :=
  ⟨by decide, by simp [viewThenEdit], by decide, by simp [viewThenEdit]⟩

/-- What a new cache is asked about first is kept. -/
theorem peek_run_get {d : Declaration} {hooks : Option HookTable} {p : Policy}
    (h : (d.build hooks none).outcome = .ok p) :
    (run none [.get d hooks]).peek d.entityType = some ⟨d.fingerprint, p, 0⟩ := by
  have hstale : (run none []).fresh d = false := rfl
  obtain ⟨notices, -, -, hkept⟩ := builds_of_not_fresh hstale hooks
  rw [show run none [.get d hooks] = (get d hooks (run none [])).1 from rfl, hkept p h]
  exact peek_keeping _ d p

theorem run_transparent_editThenView :
    ∃ entry p, get editThenView none (run none [.get viewThenEdit none]) =
        (run none [.get viewThenEdit none], Run.answer entry) ∧
      (editThenView.build none none).outcome = .ok p ∧ entry.policy.SameRules p := by
  have hcontent : viewThenEdit.SameContent editThenView :=
    ⟨rfl, .swap _ _ _, .refl _, rfl, rfl, rfl⟩
  have hproper : editThenView.Proper :=
    ⟨by decide, by simp [editThenView], by decide, by simp [editThenView, viewThenEdit]⟩
  have hbuilds : ((viewThenEdit.build none none).outcome.toOption.any fun _ => true) = true := by
    decide +kernel
  obtain ⟨first, hfirst, -⟩ := exists_ok_of_any hbuilds
  have htransparent := run_transparent none [.get viewThenEdit none]
  have hget := htransparent.reuses editThenView none _ (peek_run_get hfirst)
    (Declaration.fingerprint_eq_of_sameContent proper_viewThenEdit hcontent)
  obtain ⟨p, hbuild, hrules⟩ := htransparent.rules
    (by simpa [Call.Proper] using proper_viewThenEdit) editThenView hproper none _
    (by rw [hget]; rfl) none
  exact ⟨_, p, hget, hbuild, hrules⟩

/-- Viewing notes under the label of a smile. -/
def smile : Declaration where
  entityType := "Note"
  credentials := [("view", some { label := some (.given "😀") })]
  includeDefaults := false

/-- The two halves of a smile. -/
def halves : Text.Loose :=
  ⟨[.half ⟨0xd83d, by decide⟩, .half ⟨0xde00, by decide⟩], ⟨_, .head _⟩⟩

/-- The same with the label torn into halves. -/
def tornSmile : Declaration :=
  { smile with credentials := [("view", some { label := some (.loose halves) })] }

/-- Whether a text holds half of a character. -/
def torn : Caption Value → Bool
  | .given _ => false
  | .loose _ => true

/-- A smile and its halves have one fingerprint, so the policy of the one is handed out for the
other, with a label that building would not give. -/
theorem get_tornSmile :
    ∃ entry p, (get tornSmile none (run none [.get smile none])).2.outcome = .ok entry ∧
      (tornSmile.build none none).outcome = .ok p ∧ ¬ entry.policy.SameRules p := by
  have hsmile : ((smile.build none none).outcome.toOption.any fun p =>
      p.credentials.all (!torn ·.label)) = true := by decide +kernel
  have htornSmile : ((tornSmile.build none none).outcome.toOption.any fun p =>
      p.credentials.any (torn ·.label)) = true := by decide +kernel
  obtain ⟨whole, hwhole, hgiven⟩ := exists_ok_of_any hsmile
  obtain ⟨torn, htorn, hloose⟩ := exists_ok_of_any htornSmile
  have hfingerprint : smile.fingerprint = tornSmile.fingerprint := by decide +kernel
  have hpeek : (run none [.get smile none]).peek tornSmile.entityType =
      some ⟨smile.fingerprint, whole, 0⟩ := peek_run_get hwhole
  refine ⟨⟨smile.fingerprint, whole, 0⟩, torn, ?_, htorn, fun hrules => ?_⟩
  · rw [get_of_fresh hpeek hfingerprint]
    rfl
  · obtain ⟨c, hc, hc'⟩ := List.any_eq_true.mp hloose
    have hsame := List.all_eq_true.mp hgiven c (hrules.credentials.mem_iff.mpr hc)
    simp [hc'] at hsame

end Clearance.PolicyCache
