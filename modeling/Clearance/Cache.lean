import Clearance.Change
import Clearance.Declaration
import Clearance.Entries

/-! The cache of compiled policies.

Entries are kept by entity type and carry the fingerprint of the declaration
that they were compiled from; a declaration with another fingerprint is
compiled anew. Hooks are bound when an entry is compiled. -/
namespace Clearance

/-- A compiled policy with the fingerprint of its declaration and its number
among all policies that were compiled. -/
structure CacheEntry where
  fingerprint : String
  policy : Policy
  serial : Nat

/-- Compiled policies by entity type. -/
structure PolicyCache where
  settings : Option Settings := none
  entries : List (String × CacheEntry) := []
  /-- How many compilations have been run. -/
  compileCount : Nat := 0

namespace PolicyCache

/-- The entry of an entity type, without compiling. -/
def peek (c : PolicyCache) (entityType : String) : Option CacheEntry :=
  c.entries.lookup entityType

/-- The entry of an entity type of any kind of name. -/
def peekValue (c : PolicyCache) (entityType : Value) : Except Failure (Option CacheEntry) :=
  if entityType.hashable then .ok (entityType.text?.bind c.peek) else .error .mismatch

/-- The cache with an entry in the place of an entity type. -/
def store (c : PolicyCache) (entityType : String) (entry : CacheEntry) : PolicyCache :=
  { c with entries := Entries.put entityType entry c.entries }

/-- The cache with one more compilation. -/
def count (c : PolicyCache) : PolicyCache :=
  { c with compileCount := c.compileCount + 1 }

/-- Compiles a declaration, stores the policy and counts the compilation. -/
def compile (d : Declaration) (hooks : Option HookTable) : Change PolicyCache CacheEntry := do
  let c ← Change.current
  let p ← d.build hooks c.settings
  let entry : CacheEntry := ⟨d.fingerprint, p, c.compileCount⟩
  Change.modify (·.store d.entityType entry)
  Change.modify count
  pure entry

/-- The policy of a declaration, compiled only when it is missing or stale. -/
def get (d : Declaration) (hooks : Option HookTable) : Change PolicyCache CacheEntry := do
  let c ← Change.current
  match c.peek d.entityType with
  | none => compile d hooks
  | some entry =>
    if entry.fingerprint = d.fingerprint then pure entry
    else do
      Run.log .cache .info
        ("Declaration of " ++ d.entityType ++ " changed, recompiling access policy")
      compile d hooks

/-- The cache without the entry of an entity type, or without any when none is named. -/
def invalidate (c : PolicyCache) (entityType : Option String) : PolicyCache :=
  match entityType with
  | none => { c with entries := [] }
  | some e => { c with entries := Entries.erase e c.entries }

/-- The cache without the entry of an entity type of any kind of name; null names all. -/
def invalidateValue (c : PolicyCache) (entityType : Value) : Except Failure PolicyCache :=
  match entityType with
  | .null => .ok (c.invalidate none)
  | v =>
    if !v.hashable then .error .mismatch
    else
      match v.text? with
      | some e => .ok (c.invalidate (some e))
      | none => .ok c

/-- How many policies are kept. -/
def size (c : PolicyCache) : Nat :=
  c.entries.length

end PolicyCache

end Clearance
