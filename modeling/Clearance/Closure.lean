import Clearance.Registry
import Clearance.Value.Attribute
import Clearance.Value.Order

/-! The closed form of a credential graph.

Relations may be declared from one side only. Closing a graph mirrors every
relation, takes implication to its transitive closure and lets a parent imply
its children:

* `b` is implied by `a` in `a` exactly when it is so in `b`, and likewise for
  parents and children;
* a credential implies what the ones it implies do;
* a parent implies its children.

Full passes over the graph are repeated until one changes nothing. Passes only
add names to finite lists, so this ends. A graph may have names of any type with
an order; of equal names a list keeps the one that came first. -/
namespace Clearance

/-- The four relations of a credential. -/
structure Links (α : Type) where
  implies : List α
  impliedBy : List α
  subrights : List α
  subrightOf : List α
deriving DecidableEq, BEq

namespace Links

/-- One of the four relations. -/
def get {α : Type} (l : Links α) : Relation → List α
  | .implies => l.implies
  | .impliedBy => l.impliedBy
  | .subrights => l.subrights
  | .subrightOf => l.subrightOf

/-- The relations after one is replaced. -/
def set {α : Type} (l : Links α) (names : List α) : Relation → Links α
  | .implies => { l with implies := names }
  | .impliedBy => { l with impliedBy := names }
  | .subrights => { l with subrights := names }
  | .subrightOf => { l with subrightOf := names }

/-- Relations without entries. -/
def none {α : Type} : Links α :=
  ⟨[], [], [], []⟩

@[simp] theorem get_set_self {α : Type} (l : Links α) (names : List α) (r : Relation) :
    (l.set names r).get r = names := by
  cases r <;> rfl

theorem get_set_of_ne {α : Type} (l : Links α) (names : List α) {r s : Relation} (h : s ≠ r) :
    (l.set names r).get s = l.get s := by
  cases r <;> cases s <;> first | rfl | exact absurd rfl h

end Links

/-! ## Ascending lists of names -/

namespace Ascending

variable {α : Type} [Ord α]

/-- Adds a name to an ascending list. -/
def insert (x : α) : List α → List α
  | [] => [x]
  | y :: rest =>
    match compare x y with
    | .lt => x :: y :: rest
    | .eq => x :: rest
    | .gt => y :: insert x rest

/-- The names of two ascending lists in one. Of equal names that of the first list stays. -/
def union : List α → List α → List α
  | [], ys => ys
  | x :: xs, [] => x :: xs
  | x :: xs, y :: ys =>
    match compare x y with
    | .lt => x :: union xs (y :: ys)
    | .eq => x :: union xs ys
    | .gt => y :: union (x :: xs) ys
termination_by xs ys => xs.length + ys.length

theorem mem_insert [Std.LawfulEqOrd α] {x z : α} {names : List α} :
    z ∈ insert x names ↔ z = x ∨ z ∈ names := by
  induction names with
  | nil => simp [insert]
  | cons y rest ih =>
    simp only [insert]
    split
    · simp
    · rename_i h
      simp [Std.LawfulEqOrd.eq_of_compare h]
    · simp only [List.mem_cons, ih]
      constructor <;> rintro (h | h | h) <;> simp [h]

theorem mem_union [Std.LawfulEqOrd α] {z : α} {xs ys : List α} :
    z ∈ union xs ys ↔ z ∈ xs ∨ z ∈ ys := by
  fun_induction union xs ys with
  | case1 ys => simp
  | case2 x xs => simp
  | case3 x xs y ys _ ih => simp [ih, or_assoc]
  | case4 x xs y ys h ih =>
    simp only [List.mem_cons, ih, Std.LawfulEqOrd.eq_of_compare h]
    constructor
    · rintro (h | h | h) <;> simp [h]
    · rintro ((h | h) | h | h) <;> simp [h]
  | case5 x xs y ys _ ih =>
    simp only [List.mem_cons, ih]
    constructor
    · rintro (h | (h | h) | h) <;> simp [h]
    · rintro ((h | h) | h | h) <;> simp [h]

end Ascending

/-! ## Graphs -/

/-- Names with their relations, in order of declaration. -/
abbrev Graph (α : Type) :=
  List (α × Links α)

namespace Graph

variable {α : Type}

/-- The names in order. -/
def names (g : Graph α) : List α :=
  g.map Prod.fst

variable [Ord α] [BEq α]

/-- The relations of a name. -/
def linksOf (g : Graph α) (name : α) : Links α :=
  (g.lookup name).getD Links.none

/-- Adds an ascending list of names to one relation of a credential. -/
def extend (target : α) (r : Relation) (added : List α) : Graph α → Graph α
  | [] => []
  | (name, links) :: rest =>
    if name == target then (name, links.set (Ascending.union (links.get r) added) r) :: rest
    else (name, links) :: extend target r added rest

/-- What a credential passes on to the ones it is related to: itself and what
it lists. Its relations are read once, before anything is passed on. -/
def visit (g : Graph α) (name : α) : Graph α :=
  let links := g.linksOf name
  let implies := Ascending.insert name links.implies
  let impliedBy := Ascending.insert name links.impliedBy
  let subrights := Ascending.insert name links.subrights
  let subrightOf := Ascending.insert name links.subrightOf
  let g := links.impliedBy.foldl (fun g parent => g.extend parent .implies implies) g
  let g := links.implies.foldl (fun g child => g.extend child .impliedBy impliedBy) g
  let g := links.subrights.foldl
    (fun g sub => (g.extend sub .subrightOf subrightOf).extend sub .impliedBy impliedBy) g
  links.subrightOf.foldl
    (fun g parent => (g.extend parent .subrights subrights).extend parent .implies implies) g

/-- One pass over every credential, each seeing what the ones before it passed on. -/
def pass (g : Graph α) : Graph α :=
  g.names.foldl visit g

/-- Passes until one changes nothing, or the fuel is spent; also the number of passes. -/
def settle : Nat → Graph α → Graph α × Nat
  | 0, g => (g, 0)
  | fuel + 1, g =>
    let next := g.pass
    if next == g then (next, 1)
    else
      let (final, passes) := settle fuel next
      (final, passes + 1)

/-- The closed graph and the number of passes, the last of which changes
nothing. Every other pass adds a name to one of the four lists of a credential. -/
def close (g : Graph α) : Graph α × Nat :=
  g.settle (4 * g.length * g.length + 1)

/-- The first reference to a name that is not declared: credential, relation and reference. -/
def dangling? (declared : List α) : Graph α → Option (α × Relation × α)
  | [] => none
  | (name, links) :: rest =>
    let found := Relation.all.findSome? fun r =>
      ((links.get r).find? fun x => !declared.contains x).map fun x => (r, x)
    match found with
    | some (r, x) => some (name, r, x)
    | none => dangling? declared rest

/-- Whether every list of relations has a property. -/
def allLists (p : List α → Bool) (g : Graph α) : Bool :=
  g.all fun e => Relation.all.all fun r => p (e.2.get r)

end Graph

/-! ## Compiled credentials -/

/-- A credential of a closed graph. Its relations are ascending. -/
structure Capability where
  name : Value
  label : Caption Value
  description : Caption Value
  links : Links Value

/-- The credential that a compiled one can be declared as. -/
def Capability.toCredential (c : Capability) : Credential where
  name := c.name
  label := c.label
  description := c.description
  implies := .tuple c.links.implies
  impliedBy := .tuple c.links.impliedBy
  subrights := .tuple c.links.subrights
  subrightOf := .tuple c.links.subrightOf

namespace Credential

/-- One relation as a sorted list without duplicates. -/
def sortedRelation (c : Credential) (r : Relation) : Except Failure (List Value) := do
  let items ← orMismatch (c.relation r).distinctMembers?
  orMismatch (Value.sort? items)

/-- The four relations, sorted. -/
def sortedLinks (c : Credential) : Except Failure (Links Value) := do
  let implies ← c.sortedRelation .implies
  let impliedBy ← c.sortedRelation .impliedBy
  let subrights ← c.sortedRelation .subrights
  let subrightOf ← c.sortedRelation .subrightOf
  pure ⟨implies, impliedBy, subrights, subrightOf⟩

end Credential

/-- Declared credentials by key. A key is most often the name of its credential,
but it need not be. -/
abbrev Declared :=
  List (Value × Credential)

/-- The declared credentials of a registry. -/
def Registry.declared (r : Registry) : Declared :=
  r.credentials.map fun e => (e.2.name, e.2)

namespace Declared

/-- The sorted relations of every credential. -/
def graph (source : Declared) : Except Failure (Graph Value) :=
  source.mapM fun e => do
    let links ← e.2.sortedLinks
    pure (e.1, links)

/-- What the log says about a dangling reference. -/
def danglingText (owner name : Value) (r : Relation) (reference : Value) : String :=
  Rejection.unbound owner ++ ": " ++ Rejection.danglingText name r reference

/-- What the log says about a compiled graph. -/
def compiledText (owner : Value) (size passes : Nat) : String :=
  "Compiled " ++ toString size ++ " credentials for " ++ Rejection.unbound owner ++ " in " ++
    toString passes ++ " passes"

/-- The compiled credentials of a source whose relations are closed. -/
def capabilities (source : Declared) (closed : Graph Value) : List Capability :=
  source.map fun e => ⟨e.1, e.2.label, e.2.description, closed.linksOf e.1⟩

/-- A graph whose lists can be sorted. Lists only grow while a graph is closed,
so the last ones show whether two names without an order ever met. -/
def sortable (g : Graph Value) : Except Failure Unit :=
  if g.allLists Value.comparable then .ok () else .error .mismatch

/-- Compiles declared credentials: relations are mirrored and closed. A
reference to a name that is not declared is refused before that. -/
def compile (source : Declared) (owner : Value) : Run (List Capability) := do
  let graph ← Run.ofExcept source.graph
  match graph.dangling? graph.names with
  | some (name, r, reference) => do
    Run.ofExcept (asWritten [name, reference])
    Run.log .closure .error (danglingText owner name r reference)
    Run.reject (.unknownReference owner name r reference)
  | none => do
    let (closed, passes) := graph.close
    Run.ofExcept (sortable closed)
    Run.log .closure .debug (compiledText owner source.length passes)
    pure (source.capabilities closed)

/-- Whether compiling would leave every relation as it is. -/
def isClosed (source : Declared) : Except Failure Bool := do
  let graph ← source.graph
  match graph.dangling? graph.names with
  | some _ => pure false
  | none => do
    let next := graph.pass
    sortable next
    pure (next == graph)

/-- The declared credentials of a mapping, if all its values are credentials.
The relations of each are read before the next is looked at. -/
def ofEntries : List (Value × Value) → Except Failure Declared
  | [] => .ok []
  | (key, v) :: rest =>
    match Credential.ofValue? v with
    | none => .error (v.lacksOperation "relation")
    | some c => do
      let _ ← c.sortedLinks
      let rest ← ofEntries rest
      pure ((key, c) :: rest)

/-- A key and a value from a pair of any kind. -/
def pairOf (v : Value) : Except Failure (Value × Value) :=
  match v.members? with
  | none => .error .mismatch
  | some [key, w] => do
    asKey key
    pure (key, w)
  | some _ => .error .illFormed

/-- The declared credentials of a mapping, or of pairs of a key and a credential. -/
def ofValue (v : Value) : Except Failure Declared :=
  match v.entries? with
  | some entries => ofEntries entries
  | none => do
    let pairs ← (← orMismatch v.members?).mapM pairOf
    ofEntries (pairs.foldl (fun m e => Value.put e.1 e.2 m) [])

end Declared

/-! ## Expansion -/

/-- What a collection of credentials says about a name: nothing, or what it implies. -/
abbrev Implied :=
  Value → Except Failure (Option Value)

/-- Held names with everything they imply, in ascending order. Names that are
not declared stay as they are. -/
def expandHeld (implied : Implied) (held : Value) : Except Failure (List Value) := do
  let start ← orMismatch held.distinctMembers?
  let added ← start.mapM fun name => do
    match ← implied name with
    | none => pure []
    | some names => orMismatch names.distinctMembers?
  orMismatch (Value.sort? (Value.distinct (start ++ added.flatten)))

/-- What compiled credentials say about a name. -/
def impliedBy (compiled : List Capability) : Implied := fun name =>
  .ok ((compiled.find? (·.name == name)).map fun c => .tuple c.links.implies)

/-- What declared credentials say about a name. -/
def impliedByDeclared (source : Value) : Implied := fun name => do
  match source.entries? with
  | none => .error (source.lacksOperation "get")
  | some entries =>
    match Value.at? name entries with
    | none => pure none
    | some .null => pure none
    | some v =>
      match v.attributeNamed "implies" with
      | .part names => pure (some names)
      | .absent => .error .missingAttribute
      | .operation => .error .mismatch

end Clearance
