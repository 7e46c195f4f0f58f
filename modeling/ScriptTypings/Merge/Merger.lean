import ScriptTypings.Merge.Resolution

/-!
# Merging

A `Merger` joins reflected trees with a corpus. It remembers every type name that it meets, and the
namespaces whose pages list structural types. After a tree is resolved, `backfill` declares the
remembered structural types in the last namespace that lists them, and those that their declarations
mention in turn. `mergeUntilMisfit` stops where a value that is no text is used as one; what is left
is told by the events up to there.
-/

namespace ScriptTypings

open Text

structure Merger where
  reference : Reference
  memory : Memory := {}
  /-- The numbers of namespaces by the lower-case form of the types that their pages list. -/
  owners : NameMap Nat := []
  /-- All namespaces met so far; a namespace's number is its place. -/
  spaces : List Surface.Space := []

namespace Merger

def ofCorpus (corpus : Corpus) (overrides : List (String × Json)) : Merger :=
  { reference := .ofCorpus corpus overrides }

/-- The lower-case forms of the types that the page of a namespace lists. -/
def listedTypes (r : Reference) (fullname : String) : List String :=
  match r.corpus.get? fullname with
  | some ⟨_, _, .space listing⟩ => listing.types.map fun id => lowered id.asText
  | _ => []

/-- Enters the types that numbered namespaces list; a later namespace takes a type over. -/
def registerAll (r : Reference) : Nat → List Surface.Space → NameMap Nat → NameMap Nat
  | _, [], owners => owners
  | number, space :: spaces, owners =>
    registerAll r (number + 1) spaces
      (NameMap.update owners ((listedTypes r space.fullname).map fun key => (key, number)))

/-- A declaration and the number of the namespace that it belongs to. -/
structure Addition where
  owner : Nat
  name : String
  node : Surface

/-- The backfill so far. -/
structure Progress where
  memory : Memory
  spaces : List Surface.Space
  additions : List Addition := []
  trace : MergeTrace := []

/-- Whether an entry is one of a type without presence at run time. -/
def isStructural (entry : Entry) : Bool :=
  match entry.content with
  | .record _ => true
  | .delegate _ => true
  | .interface _ => true
  | _ => false

/-- The member names of a numbered namespace. -/
def namesIn (spaces : List Surface.Space) (number : Nat) : List String :=
  (spaces[number]?.map Surface.Space.names).getD []

/-- Adds a member name to a numbered namespace. -/
def addName (spaces : List Surface.Space) (number : Nat) (name : String) : List Surface.Space :=
  spaces.modify number fun space => { space with names := space.names ++ [name] }

/-- Declares the structural type of a remembered name, if some namespace lists it and has no member
of that name. -/
def declareName (r : Reference) (owners : NameMap Nat) (p : Progress) (name : String)
    (entry : Entry) : Progress :=
  if !isStructural entry then p
  else
    match NameMap.find? (lowered name) owners with
    | none =>
      { p with
        trace := p.trace ++ Trace.step (.note (name ++ " is not listed by any mapped namespace")) }
    | some owner =>
      let short := Identifier.lastSegment entry.identifier.asText
      let p := { p with trace := p.trace ++ Trace.use entry.identifier }
      -- a member that the tree or an earlier declaration already has keeps its place
      if (namesIn p.spaces owner).contains short then p
      else
        match r.declare? short entry with
        | none => p
        | some declared =>
          { memory := p.memory.addAll declared.mentions
            spaces := addName p.spaces owner short
            additions := p.additions ++ [⟨owner, short, declared.node⟩]
            trace := p.trace ++ declared.trace ++ Trace.step (.member owner short) }

theorem length_erase_lt {α : Type} {name : String} {m : NameMap α} {a : α}
    (h : NameMap.find? name m = some a) : (NameMap.erase name m).length < m.length := by
  induction m with
  | nil => simp at h
  | cons entry rest ih =>
    obtain ⟨n, b⟩ := entry
    by_cases hn : n = name
    · subst hn
      have := List.length_filter_le (fun e : String × α => decide (e.1 ≠ n)) rest
      simp [NameMap.erase] at *
      omega
    · have := ih (by simpa [NameMap.find?, hn] using h)
      simp [NameMap.erase, hn] at *
      omega

/-- Visits the remembered names in order, and those that are remembered on the way. An entry is
taken out of `left` when its name is visited, as no name is remembered twice. -/
def backfillFrom (r : Reference) (owners : NameMap Nat) (left : NameMap Entry) (p : Progress)
    (pending : List String) : Progress :=
  match pending with
  | [] => p
  | name :: pending =>
    match _h : NameMap.find? (lowered name) left with
    -- the corpus has no such entry, or it was visited under another spelling
    | none => backfillFrom r owners left p pending
    | some entry =>
      let next := declareName r owners p name entry
      let fresh := next.memory.names.drop p.memory.names.length
      backfillFrom r owners (NameMap.erase (lowered name) left) next (pending ++ fresh)
termination_by (left.length, pending.length)
decreasing_by
  · exact Prod.Lex.right _ (by simp)
  · exact Prod.Lex.left _ _ (length_erase_lt _h)

def backfill (r : Reference) (owners : NameMap Nat) (p : Progress) : Progress :=
  backfillFrom r owners r.corpus.entries p p.memory.names

/-- The declarations for a numbered namespace. -/
def additionsTo (additions : List Addition) (number : Nat) : List (String × Surface) :=
  (additions.filter fun a => a.owner = number).map fun a => (a.name, a.node)

/-- A merged tree, and the steps that led to it. -/
structure Merged where
  surface : Surface
  trace : MergeTrace

/-- Merges a tree: its members are resolved, then the structural types are declared. -/
def merge (m : Merger) (root : Reflected.Root) : Merger × Merged :=
  let r := m.reference
  let name := Identifier.lastSegment root.fullname
  let resolved := r.resolve "" name root.node
  let base := m.spaces.length
  let owners := registerAll r base resolved.spaces m.owners
  let start : Progress :=
    { memory := m.memory.addAll resolved.mentions, spaces := m.spaces ++ resolved.spaces }
  let p := backfill r owners start
  ({ m with memory := p.memory, owners, spaces := p.spaces },
    { surface := (resolved.attach (additionsTo p.additions) base).withListeners
      trace := r.resolveTrace base "" name root.node ++ p.trace })

/-- The merger after an event. -/
def take (m : Merger) : MergeEvent → Merger
  | .mention name => { m with memory := m.memory.add name }
  | .space fullname listed =>
    { m with
      owners := NameMap.update m.owners (listed.map fun key => (key, m.spaces.length))
      spaces := m.spaces ++ [⟨fullname, []⟩] }
  | .member space name => { m with spaces := addName m.spaces space name }
  | .note _ => m

/-- The merger after the events of a trace, up to where it stops. -/
def replay (m : Merger) (trace : MergeTrace) : Merger :=
  trace.done.foldl take m

/-- Merges a tree until a value that is no text is used as one. -/
def mergeUntilMisfit (m : Merger) (root : Reflected.Root) : Merger × Except Misfit Merged :=
  let (next, merged) := m.merge root
  match merged.trace.misfit? with
  | none => (next, .ok merged)
  | some misfit => (m.replay merged.trace, .error misfit)

/-- Enters a class at the top of a tree as if it were a namespace without members, by its full name.
No tree comes of it, but the types that the page lists are known from then on. -/
def enterClass (m : Merger) (fullname : String) : Merger :=
  if m.reference.isEnumeration fullname then m else m.replay (m.reference.spaceTrace fullname)

/-- Remembers the names that a type text mentions. -/
def remember (m : Merger) (text : String) : Merger :=
  { m with memory := m.memory.remember text }

def rememberName (m : Merger) (name : String) : Merger :=
  { m with memory := m.memory.add name }

/-- Declares a structural type under a name, outside of any tree, until a value that is no text is
used as one. -/
def declare? (m : Merger) (name : String) (entry : Entry) :
    Option (Merger × Except Misfit Surface) :=
  (m.reference.declare? name entry).map fun declared =>
    match declared.trace.misfit? with
    | none => ({ m with memory := m.memory.addAll declared.mentions }, .ok declared.node)
    | some misfit =>
      ({ m with memory := m.memory.addAll declared.trace.mentions }, .error misfit)

/-- The listed types, and the full names of the namespaces that they belong to, in order. -/
def registry (m : Merger) : List (String × String) :=
  NameMap.sorted (m.owners.map fun o =>
    (o.1, (m.spaces[o.2]?.map Surface.Space.fullname).getD ""))

end Merger

/-- The surface of a reflected tree, merged by a new merger. -/
def mergeTree (root : Reflected.Root) (corpus : Corpus) (overrides : List (String × Json)) :
    Merger.Merged :=
  ((Merger.ofCorpus corpus overrides).merge root).2

end ScriptTypings
