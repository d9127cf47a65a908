import Clearance.Declaration.Document
import Clearance.Proofs.Declaration.Section
import Clearance.Proofs.Yaml.Document

/-! What can go wrong when declarations are loaded.

A file passes through four stages: its octets are decoded, its text is read as YAML, the
models in it are told apart, and the section of each is read. A stage refuses what does not
fit with a configuration error. What escapes from that is told here (`Declaration.Escapes`). -/
namespace Clearance.Declaration

/-! ## Sections -/

/-- What is declared of a model cannot be read, and the refusal cannot be written out, for it
would have to name the entity type. -/
inductive Unnameable (entityType data : Value) : Prop
  /-- No mapping. -/
  | value (h : data.entries? = none) (hname : entityType.writable = false)
  /-- A mapping that is no section. -/
  | body {body : Section} {issues : List Issue} (h : data.entries? = some body)
      (hread : read (withEntityType entityType body) = .faulty issues)
      (howner : (owner entityType body).writable = false)

theorem unnameable_iff_of_none {entityType data : Value} (h : data.entries? = none) :
    Unnameable entityType data ↔ entityType.writable = false := by
  constructor
  · rintro (⟨-, hname⟩ | ⟨hbody, -, -⟩)
    · exact hname
    · cases h.symm.trans hbody
  · exact .value h

theorem unnameable_iff_of_some {entityType data : Value} {body : Section}
    (h : data.entries? = some body) : Unnameable entityType data ↔
      (∃ issues, read (withEntityType entityType body) = .faulty issues) ∧
        (owner entityType body).writable = false := by
  constructor
  · rintro (⟨hnone, -⟩ | ⟨hbody, hread, howner⟩)
    · cases h.symm.trans hnone
    · cases h.symm.trans hbody
      exact ⟨⟨_, hread⟩, howner⟩
  · rintro ⟨⟨issues, hread⟩, howner⟩
    exact .body h hread howner

/-- A refusal that names an entity type takes one that can be written out. -/
theorem surfaces_refusal {α : Type} {r : Rejection} (hr : r.kind.isA .configuration = true)
    (named : Bool) : Surfaces (fun f => f = .illFormed ∧ named = false)
      (if named then .error (.rejected r) else .error .illFormed : Except Failure α) := by
  cases named with
  | true =>
    refine ⟨fun f hf => (nomatch hf.2), fun f hf => ?_⟩
    cases hf
    exact .inl hr
  | false => exact surfaces_escaped.congr fun f => by simp

/-- **One section.** It is read, or refused with a configuration error, unless its entity type
cannot be written out. -/
theorem surfaces_parse (entityType data : Value) :
    Surfaces (fun f => f = .illFormed ∧ Unnameable entityType data)
      (parse entityType data).outcome := by
  cases hentries : data.entries? with
  | none =>
    rw [outcome_parse_of_none hentries]
    refine (surfaces_refusal rfl _).congr fun f => ?_
    rw [unnameable_iff_of_none hentries]
  | some body =>
    rw [parse_of_entries? hentries, outcome_ofSection]
    cases hread : read (withEntityType entityType body) with
    | fits d =>
      refine surfaces_ok.congr fun f => ?_
      simp [unnameable_iff_of_some hentries, hread]
    | faulty issues =>
      refine (surfaces_refusal rfl _).congr fun f => ?_
      simp [unnameable_iff_of_some hentries, hread]

/-! ## Models -/

/-- What is declared of a model, where null stands for an empty section. -/
def sectionOf : Value → Value
  | .null => .dict []
  | body => body

theorem parseEntries_cons (name body : Value) (rest : List (Value × Value)) :
    parseEntries ((name, body) :: rest) = (parse name (sectionOf body)).andThen fun d =>
      (parseEntries rest).andThen fun ds => Run.answer ((name, d) :: ds) := by
  cases body <;> rfl

theorem outcome_parseEntries (entries : List (Value × Value)) :
    (parseEntries entries).outcome =
      entries.mapM fun e => Prod.mk e.1 <$> (parse e.1 (sectionOf e.2)).outcome := by
  induction entries with
  | nil => rfl
  | cons e rest ih =>
    obtain ⟨name, body⟩ := e
    rw [parseEntries_cons, List.mapM_cons, ← ih]
    simp only [Run.outcome_andThen]
    cases (parse name (sectionOf body)).outcome with
    | error e => rfl
    | ok d => cases (parseEntries rest).outcome <;> rfl

/-- Models are read in turn, and reading stops at one whose section cannot be refused. -/
def StopsAtModel (entries : List (Value × Value)) : Prop :=
  StopsIn (fun e => ∃ d, (parse e.1 (sectionOf e.2)).outcome = .ok d)
    (fun e => Unnameable e.1 (sectionOf e.2)) entries

/-- **All models.** -/
theorem surfaces_parseEntries (entries : List (Value × Value)) :
    Surfaces (fun f => f = .illFormed ∧ StopsAtModel entries) (parseEntries entries).outcome := by
  have hpasses : ∀ (name : Value) (x : Except Failure Declaration),
      (∃ e, Prod.mk name <$> x = .ok e) ↔ ∃ d, x = .ok d := by
    rintro name (e | d) <;> simp
  rw [outcome_parseEntries]
  refine (surfaces_mapM fun e _ => (surfaces_parse e.1 (sectionOf e.2)).map).congr fun f => ?_
  rw [stopsIn_and_left, StopsAtModel]
  simp only [hpasses]

theorem surfaces_parseAll (data : Value) :
    Surfaces (fun f => ∃ entries, data.entries? = some entries ∧ f = .illFormed ∧
      StopsAtModel entries) (parseAll data).outcome := by
  unfold parseAll
  cases hentries : data.entries? with
  | none =>
    exact (surfaces_refuse_of_writable rfl (by simp [Rejection.written])).congr fun f => by simp
  | some entries => exact (surfaces_parseEntries entries).congr fun f => by simp

/-! ## Files -/

theorem surfaces_read (text : List Char) :
    Surfaces (fun f => Yaml.read text = .error f ∧ f ≠ .rejected .unreadableYaml)
      (Yaml.read text) where
  escaping _ hf := hf.1
  surfacing f hread := by
    by_cases hf : f = .rejected .unreadableYaml
    · subst hf
      exact .inl rfl
    · exact .inr ⟨hread, hf⟩

/-- **One text.** -/
theorem surfaces_parseYaml (text : List Char) :
    Surfaces (fun f => (Yaml.read text = .error f ∧ f ≠ .rejected .unreadableYaml) ∨
      ∃ data, Yaml.read text = .ok data ∧ ∃ entries, data.entries? = some entries ∧
        f = .illFormed ∧ StopsAtModel entries) (parseYaml text).outcome := by
  unfold parseYaml
  rw [Run.bind_eq, Run.outcome_andThen, Run.outcome_ofExcept]
  refine (surfaces_read text).bind fun data _ => ?_
  split
  · exact surfaces_ok.congr fun f => by simp [Value.entries?, Value.bare]
  · exact surfaces_parseAll data

/-- What escapes from loading a file with some content, which is absent when the file cannot
be read. -/
inductive Escapes : Option (List UInt8) → Failure → Prop
  /-- The octets are not UTF-8. -/
  | undecodable {octets : List UInt8} (h : Text.decodeUtf8? octets = none) :
      Escapes (some octets) .undecodable
  /-- Reading the text fails, and not because it is no YAML. -/
  | value {octets : List UInt8} {text : List Char} {f : Failure}
      (htext : Text.decodeUtf8? octets = some text)
      (hread : Yaml.read (unifyBreaks text) = .error f) (hf : f ≠ .rejected .unreadableYaml) :
      Escapes (some octets) f
  /-- The section of a model can be neither read nor refused. -/
  | model {octets : List UInt8} {text : List Char} {data : Value} {entries : List (Value × Value)}
      (htext : Text.decodeUtf8? octets = some text)
      (hread : Yaml.read (unifyBreaks text) = .ok data) (hentries : data.entries? = some entries)
      (hstop : StopsAtModel entries) :
      Escapes (some octets) .illFormed

theorem escapes_iff_of_none {octets : List UInt8} {f : Failure}
    (h : Text.decodeUtf8? octets = none) : Escapes (some octets) f ↔ f = .undecodable := by
  constructor
  · rintro (_ | ⟨hsome, -, -⟩ | ⟨hsome, -, -, -⟩)
    · rfl
    · cases h.symm.trans hsome
    · cases h.symm.trans hsome
  · rintro rfl
    exact .undecodable h

theorem escapes_iff_of_some {octets : List UInt8} {text : List Char} {f : Failure}
    (h : Text.decodeUtf8? octets = some text) : Escapes (some octets) f ↔
      (Yaml.read (unifyBreaks text) = .error f ∧ f ≠ .rejected .unreadableYaml) ∨
        ∃ data, Yaml.read (unifyBreaks text) = .ok data ∧ ∃ entries,
          data.entries? = some entries ∧ f = .illFormed ∧ StopsAtModel entries := by
  constructor
  · rintro (hnone | ⟨hsome, hread, hf⟩ | ⟨hsome, hread, hentries, hstop⟩)
    · cases h.symm.trans hnone
    · cases h.symm.trans hsome
      exact .inl ⟨hread, hf⟩
    · cases h.symm.trans hsome
      exact .inr ⟨_, hread, _, hentries, rfl, hstop⟩
  · rintro (⟨hread, hf⟩ | ⟨data, hread, entries, hentries, rfl, hstop⟩)
    · exact .value h hread hf
    · exact .model h hread hentries hstop

/-- The failures that can escape. -/
def escaping : List Failure :=
  [.undecodable, .illFormed, .outOfRange, .endless, .missingKey, .missingPlace,
    .missingAttribute, .mismatch]

theorem mem_escaping_of_readFault {f : Failure} (h : Yaml.ReadFault f) :
    f = .rejected .unreadableYaml ∨ f ∈ escaping := by
  rcases h with (⟨⟨⟩⟩ | _) | _ | _ | _ | _ <;> simp [escaping]

theorem mem_escaping {content : Option (List UInt8)} {f : Failure} (h : Escapes content f) :
    f ∈ escaping := by
  cases h with
  | undecodable => simp [escaping]
  | value _ hread hf =>
    have hfault : Yaml.ReadFault f := Yaml.fails_read _ f hread
    exact (mem_escaping_of_readFault hfault).resolve_left hf
  | model => simp [escaping]

theorem outcome_loadFile (path : String) (octets : List UInt8) :
    (loadFile path (some octets)).outcome =
      match Text.decodeUtf8? octets with
      | none => .error .undecodable
      | some text => (parseYaml (unifyBreaks text)).outcome := by
  simp only [loadFile]
  cases Text.decodeUtf8? octets with
  | none => rfl
  | some text =>
    simp only [Run.bind_eq, Run.outcome_andThen]
    cases (parseYaml (unifyBreaks text)).outcome <;> rfl

/-- **What loading fails with.** Whatever a file holds, and when it cannot be read, its
declarations are loaded or a configuration error says what is wrong, apart from what escapes,
and only failures of eight kinds do. -/
theorem surfaces_loadFile (path : String) (content : Option (List UInt8)) :
    Surfaces (Escapes content) (loadFile path content).outcome ∧
      ∀ f, Escapes content f → f ∈ escaping := by
  refine ⟨?_, fun f => mem_escaping⟩
  cases content with
  | none =>
    have hwritable : ∀ v ∈ (Rejection.unreadableFile path).written, v.writable = true := by
      simp [Rejection.written]
    refine (surfaces_refuse_of_writable rfl hwritable).congr fun f => iff_of_false id fun h => ?_
    cases h
  | some octets =>
    rw [outcome_loadFile]
    cases htext : Text.decodeUtf8? octets with
    | none => exact surfaces_escaped.congr fun f => (escapes_iff_of_none htext).symm
    | some text => exact (surfaces_parseYaml _).congr fun f => (escapes_iff_of_some htext).symm

/-- A file of one octet that is not UTF-8 is not refused with a configuration error. -/
theorem loadFile_strayOctet :
    (loadFile "declarations.yaml" (some [0xff])).outcome = .error .undecodable ∧
      ¬ Failure.undecodable.IsConfiguration :=
  ⟨rfl, id⟩

/-! ## Each of them escapes -/

/-- The failures that can escape are known by their names. -/
theorem eq_of_name_eq {f g : Failure} (hf : f ∈ escaping)
    (hg : g = .rejected .unreadableYaml ∨ g ∈ escaping) (h : g.name = f.name) : g = f := by
  simp only [escaping, List.mem_cons, List.not_mem_nil, or_false] at hf hg
  rcases hf with rfl | rfl | rfl | rfl | rfl | rfl | rfl | rfl <;>
    rcases hg with rfl | rfl | rfl | rfl | rfl | rfl | rfl | rfl | rfl <;>
    first
    | rfl
    | simp [Failure.name, Rejection.kind, ErrorKind.name] at h

/-- The name of the failure that reading a text ends in. -/
def readName? (text : String) : Option String :=
  match Yaml.read (unifyBreaks text.toList) with
  | .ok _ => none
  | .error f => some f.name

theorem exists_escapes_of_readName? (text : String) {f : Failure} (hf : f ∈ escaping)
    (hoctets : Text.decodeUtf8? text.toUTF8.toList = some text.toList)
    (hname : readName? text = some f.name) : ∃ content, Escapes content f := by
  unfold readName? at hname
  split at hname
  · cases hname
  · rename_i g hread
    have hg := mem_escaping_of_readFault (Yaml.fails_read _ g hread)
    cases eq_of_name_eq hf hg (Option.some.inj hname)
    refine ⟨_, .value hoctets hread ?_⟩
    rintro rfl
    simp [escaping] at hf

/-- **Nothing is listed in vain.** Every failure that can escape does so for some file. -/
theorem exists_escapes {f : Failure} (hf : f ∈ escaping) : ∃ content, Escapes content f := by
  have htext := fun text => exists_escapes_of_readName? text hf
  simp only [escaping, List.mem_cons, List.not_mem_nil, or_false] at hf
  rcases hf with rfl | rfl | rfl | rfl | rfl | rfl | rfl | rfl
  · exact ⟨some [0xff], .undecodable (by decide)⟩
  · exact htext "2001-02-30" (by decide +kernel) (by decide +kernel)
  · exact htext "\"\\UFFFFFFFF\"" (by decide +kernel) (by decide +kernel)
  · exact htext "&a !!str \x7b=: *a\x7d" (by decide +kernel) (by decide +kernel)
  · exact htext "!!bool maybe" (by decide +kernel) (by decide +kernel)
  · exact htext "!!int \"\"" (by decide +kernel) (by decide +kernel)
  · exact htext "!!timestamp now" (by decide +kernel) (by decide +kernel)
  · exact htext "!!timestamp \x7b=: 2001-02-03\x7d" (by decide +kernel) (by decide +kernel)

end Clearance.Declaration
