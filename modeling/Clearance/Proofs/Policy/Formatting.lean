import Clearance.Proofs.Access.Expansion
import Clearance.Proofs.Registry.History

/-! Formatting the names of a policy.

Formatting asks only whether a name is declared. That it leaves formatted names alone, and that
no two bare names are formatted to one text, comes from what may be declared: whatever a name
came in by, the built-in credentials, a collection or a registry, it was checked, and the
separator does not stand in it (`accepted_of_declares`). `format_laws` puts the laws together,
for one name and for the members of a collection. -/
namespace Clearance

namespace Policy

variable {plan : Plan} {p : Policy}

/-! ## What may be declared -/

/-- Every name that a built policy declares was accepted. -/
theorem accepted_of_declares (hbuild : (build plan).outcome = .ok p) {s : String}
    (hs : p.declares (.text s) = true) : Name.Accepted s := by
  obtain ⟨-, registry, hdeclared, compiled, hcompiled, checked, -, rfl⟩ := build_ok_iff.mp hbuild
  obtain ⟨items, -, -, rfl⟩ := declared_ok_iff.mp hdeclared
  have hreflects := (Registry.reflects_startRegistry plan.entityType plan.includeDefaults.isTrue
    plan.softDelete.isTrue).addAll items
  have hcloses := (Declared.closes_of_compile hreflects.wellFormed_declared hcompiled).2
  -- the compiled names are the keys of the registry
  obtain ⟨c, hc, hname⟩ := (declares_iff (Value.isName_text s)).mp hs
  have hkey : s ∈ compiled.map fun c => c.name.word :=
    List.mem_map.mpr ⟨c, hc, (Value.text?_eq_some_iff.mp hname).2⟩
  rw [hcloses.map_word, hreflects.word_declared] at hkey
  obtain ⟨e, he, rfl⟩ := List.mem_map.mp hkey
  exact hreflects.acceptable e he

/-! ## One name -/

theorem formatValue_text (s : String) :
    p.formatValue (.text s) = .ok (.text (p.formatText s)) :=
  congrArg Except.ok (format_text s)

/-- What is declared is formatted, and what is formatted is not declared. -/
theorem formatText_formatText (hbuild : (build plan).outcome = .ok p) (s : String) :
    p.formatText (p.formatText s) = p.formatText s := by
  have hglobal : p.declares (.text (p.formatText s)) = false := by
    by_cases hs : p.declares (.text s) = true
    · rw [Bool.eq_false_iff]
      intro hjoin
      have hwhole := (accepted_of_declares hbuild hjoin).whole
      rw [formatText, if_pos hs] at hwhole
      exact hwhole (Name.separated_join _ _)
    · rw [formatText, if_neg hs]
      simpa using hs
  conv_lhs => rw [formatText, hglobal]
  rfl

/-- Two bare names are formatted apart: either both get the same text in front, or one of them
gets a separator that the other one lacks. -/
theorem injOn_formatText (p : Policy) : Set.InjOn p.formatText {s | ¬ Name.Separated s} := by
  intro s hs t ht heq
  unfold formatText at heq
  split at heq
  · split at heq
    · exact Name.join_right_inj.mp heq
    · exact absurd (heq ▸ Name.separated_join _ _) ht
  · split at heq
    · exact absurd (heq ▸ Name.separated_join _ _) hs
    · exact heq

/-! ## The members of a collection -/

/-- Formatted members are the formatted texts, each of them where it stands first. -/
theorem formatAll_texts (names : List String) : p.formatAll (names.map .text) =
    (names.map p.formatText).eraseDups.map .text := by
  have hmapped : (names.map Value.text).map p.format = (names.map p.formatText).map .text := by
    rw [List.map_map, List.map_map]
    exact List.map_congr_left fun s _ => format_text s
  have hnames : ∀ v ∈ (names.map p.formatText).map Value.text, v.IsName :=
    List.forall_mem_map.mpr fun s _ => Value.isName_text s
  have htexts : ∀ v ∈ p.formatAll (names.map .text), v.IsText := by
    intro v hv
    rw [formatAll, hmapped] at hv
    obtain ⟨s, -, rfl⟩ := List.mem_map.mp ((Value.distinctFrom_sublist [] _).subset hv)
    exact ⟨s, rfl⟩
  have hwords : (p.formatAll (names.map .text)).map Value.word =
      (names.map p.formatText).eraseDups := by
    rw [formatAll, hmapped, Value.map_word_distinct hnames, List.map_map]
    exact congrArg List.eraseDups (List.map_id _)
  rw [← hwords, List.map_map]
  refine (List.map_id _).symm.trans (List.map_congr_left fun v hv => ?_)
  exact Value.eq_text_of_isText (htexts v hv)

theorem formatMembers_texts {v : Value} {names : List String}
    (hnames : v.members? = some (names.map .text)) :
    p.formatMembers v = .ok ((names.map p.formatText).eraseDups.map .text) := by
  rw [← formatAll_texts]
  exact formatMembers_eq_ok hnames (List.forall_mem_map.mpr fun s _ => Value.isName_text s)

/-- Formatting formatted members again changes nothing, and drops nothing either. -/
theorem eraseDups_map_formatText (hbuild : (build plan).outcome = .ok p) (names : List String) :
    ((names.map p.formatText).eraseDups.map p.formatText).eraseDups =
      (names.map p.formatText).eraseDups := by
  have hfixed : (names.map p.formatText).eraseDups.map p.formatText =
      (names.map p.formatText).eraseDups := by
    refine (List.map_congr_left fun t ht => ?_).trans (List.map_id _)
    obtain ⟨s, -, rfl⟩ := List.mem_map.mp (List.mem_eraseDups.mp ht)
    exact formatText_formatText hbuild s
  rw [hfixed, Value.eraseDups_of_nodup (Value.nodup_eraseDups _)]

/-- **The laws of formatting.** A policy that was built formats a text to one that it leaves
alone, and bare names to different texts. The members of a collection are formatted one by one
and keep their order; of members that are formatted alike the first one stays, so that of bare
names exactly the repeated ones are dropped, and a second formatting changes nothing. -/
theorem format_laws (hbuild : (build plan).outcome = .ok p) :
    (∀ s, p.formatValue (.text s) = .ok (.text (p.formatText s)) ∧
      p.formatValue (.text (p.formatText s)) = .ok (.text (p.formatText s))) ∧
    Set.InjOn p.formatText {s | ¬ Name.Separated s} ∧
    ∀ (v : Value) (names : List String), v.members? = some (names.map .text) →
      let formatted := (names.map p.formatText).eraseDups
      p.formatMembers v = .ok (formatted.map .text) ∧
        p.formatMembers (.list (formatted.map .text)) = .ok (formatted.map .text) ∧
        ((∀ s ∈ names, ¬ Name.Separated s) → formatted = names.eraseDups.map p.formatText) := by
  refine ⟨fun s => ⟨formatValue_text s, ?_⟩, injOn_formatText p, ?_⟩
  · rw [formatValue_text, formatText_formatText hbuild]
  · intro v names hnames formatted
    refine ⟨formatMembers_texts hnames, ?_, ?_⟩
    · have hlisted : (Value.list (formatted.map .text)).members? = some (formatted.map .text) :=
        rfl
      rw [formatMembers_texts hlisted]
      exact congrArg (fun texts => Except.ok (List.map Value.text texts))
        (eraseDups_map_formatText hbuild names)
    · intro hbare
      exact Value.eraseDups_map ((injOn_formatText p).mono hbare)

/-- Of two notes' names, one given twice and one formatted already, and a name that notes do not
know, the repeated one is dropped. -/
theorem formatMembers_note : ∃ p, (build notePlan).outcome = .ok p ∧
    p.formatMembers (.list [.text "view", .text "guest", .text "Note___edit", .text "view"]) =
      .ok [.text "Note___view", .text "guest", .text "Note___edit"] ∧
    p.formatMembers (.list [.text "Note___view", .text "guest", .text "Note___edit"]) =
      .ok [.text "Note___view", .text "guest", .text "Note___edit"] := by
  have hbuilt : ((build notePlan).outcome.toOption.any fun p =>
      ["view", "guest", "Note___edit", "view"].map p.formatText ==
        ["Note___view", "guest", "Note___edit", "Note___view"]) = true := by decide +kernel
  obtain ⟨p, hp, htest⟩ := exists_ok_of_any hbuilt
  obtain ⟨-, -, hmembers⟩ := format_laws hp
  obtain ⟨hfirst, hagain, -⟩ := hmembers
    (.list [.text "view", .text "guest", .text "Note___edit", .text "view"])
    ["view", "guest", "Note___edit", "view"] rfl
  rw [beq_iff_eq.mp htest] at hfirst hagain
  exact ⟨p, hp, hfirst, hagain⟩

end Policy

end Clearance
