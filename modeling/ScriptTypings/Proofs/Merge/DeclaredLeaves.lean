import ScriptTypings.Inputs
import ScriptTypings.Proofs.Declarations.Completion
import ScriptTypings.Proofs.Declarations.Leaves
import ScriptTypings.Proofs.Json.RoundTrip
import ScriptTypings.Proofs.Merge.Leaves
import ScriptTypings.Proofs.Merge.WellTyped
import ScriptTypings.Proofs.Session.Decoding

/-!
# Leaves of merged trees in their declarations

What coverage counts in a merged tree has a declaration, unless it is below an object that is
written as a name, or a member of a vector that is called like its index functions.
-/

namespace ScriptTypings.Merger

open Declarations (ArityTable DeclaredAmong IndexedAmong SitedLeaf declarationText? headerText
  linesText rootLeaves rootLines rootParts? rootTrace)

variable {corpus : Corpus} {overrides : List (String × Json)} {m : Merger}

/-- A merged tree is that of an object, so that it can be written. -/
theorem exists_rootParts?_merge (m : Merger) (root : Reflected.Root) :
    ∃ members, rootParts? (m.merge root).2.surface =
      some (Identifier.lastSegment root.fullname, m.reference.describe root.fullname, members) := by
  simp only [merge, Reflected.Root.node, Reference.resolve]
  split
  · exact ⟨_, rfl⟩
  · exact ⟨_, rfl⟩

/-- Every leaf of a merged tree that is written has a line of its own in the declarations, which
declares it under its name in the form for the place where it is. These are the leaves that coverage
counts, up to two kinds. A vector has the index functions in place of members that are called like
them, and nothing is written for what is below an object that an enumeration or a prototype holds.
With well-typed entries, textual overrides and a table of few enough arguments, trees are merged and
written to the end. -/
theorem declaredAmong_of_mergeUntilMisfit (h : Reachable corpus overrides m)
    (root : Reflected.Root) (table : ArityTable) (header : String) :
    ((∀ e ∈ corpus.entries, e.2.isWellTyped = true) → (∀ o ∈ overrides, o.2.isText = true) →
      table.FillsAll → ∃ next merged, m.mergeUntilMisfit root = (next, .ok merged) ∧
        (rootTrace table merged.surface).misfit? = none) ∧
    ∀ next merged, m.mergeUntilMisfit root = (next, .ok merged) →
      let leaves := rootLeaves table merged.surface
      leaves.map SitedLeaf.node = merged.surface.leaves ∧
      (Coverage.ofSurface merged.surface).total = leaves.length ∧
      ∃ lines, declarationText? table header merged.surface =
          some (headerText header ++ linesText lines) ∧
        DeclaredAmong leaves lines ∧ ∀ leaf ∈ leaves, IndexedAmong leaf lines := by
  refine ⟨fun hentries hoverrides hfills => ?_, fun next merged hrun => ?_⟩
  · exact ⟨_, _, h.mergeUntilMisfit_eq hentries hoverrides root,
      Declarations.misfit?_rootTrace hfills (h.isWellTyped_merge hentries hoverrides root)⟩
  · obtain ⟨members, hparts⟩ := exists_rootParts?_merge m root
    rw [merge_of_mergeUntilMisfit hrun] at hparts
    obtain ⟨hdeclared, hindexed⟩ := Declarations.declared_rootLines table hparts
    have hnodes := Declarations.node_rootLeaves table hparts
    refine ⟨hnodes, ?_, _, ?_, hdeclared, hindexed⟩
    · rw [Coverage.ofSurface, ← hnodes, List.length_map]
    · rw [declarationText?, hparts]
      rfl

/-- An enumeration among objects without pages. -/
def boxCorpus : Corpus where
  entries := [("n.kind", ⟨"N.Kind", "", .enumeration⟩)]

/-- Objects inside of a prototype and of an enumeration. -/
def boxTree : Json :=
  .object [("__type", "structure"), ("__fullname", "N"),
    ("Box", .object [("__type", "class"), ("__fullname", "N.Box"),
      ("prototype", .object [("size", "number"),
        ("style", .object [("__type", "structure"), ("__fullname", "N.Box.style"),
          ("color", "string")])])]),
    ("Kind", .object [("__type", "structure"), ("__fullname", "N.Kind"), ("small", "number"),
      ("extra", .object [("__type", "structure"), ("__fullname", "N.Kind.extra"),
        ("hidden", "number")])])]

def boxRoot : Reflected.Root where
  fullname := "N"
  members :=
    [("Box", .cls "N.Box" none [] [("size", .placeholder "number"),
      ("style", .space "N.Box.style" [("color", .placeholder "string")])]),
     ("Kind", .space "N.Kind" [("small", .placeholder "number"),
      ("extra", .space "N.Kind.extra" [("hidden", .placeholder "number")])])]

def boxSurface : Surface :=
  .space "N" "N" ""
    [("Box", .cls { name := "Box", fullname := "N.Box" } []
      [("size", .unresolved "number"),
       ("style", .space "style" "N.Box.style" "" [("color", .unresolved "string")])]),
     ("Kind", .enumeration "Kind" "N.Kind" ""
      [("small", .unresolved "number"),
       ("extra", .space "extra" "N.Kind.extra" "" [("hidden", .unresolved "number")])])]

theorem surface_merge_box :
    ((ofCorpus boxCorpus []).merge boxRoot).2.surface = boxSurface := by
  have hnames : ((ofCorpus boxCorpus []).reference.resolve "" "N" boxRoot.node).mentions = [] := by
    decide
  rw [merge, backfill_of_names_nil]
  · rfl
  · exact congrArg (fun names => (Memory.addAll {} names).names) hnames

/-- The members of the class and of the enumeration have lines, and what is inside of their objects
has none. -/
theorem declaredAmong_of_mergeUntilMisfit_box :
    Reachable boxCorpus [] (ofCorpus boxCorpus []) ∧
    (∀ e ∈ boxCorpus.entries, e.2.isWellTyped = true) ∧ ArityTable.FillsAll {} ∧
    ∃ next merged lines, (ofCorpus boxCorpus []).mergeUntilMisfit boxRoot = (next, .ok merged) ∧
      (rootTrace {} merged.surface).misfit? = none ∧
      declarationText? {} "" merged.surface = some (headerText "" ++ linesText lines) ∧
      DeclaredAmong (rootLeaves {} merged.surface) lines ∧
      ((rootLeaves {} merged.surface).filter SitedLeaf.isWritten).map SitedLeaf.name =
        ["size", "small"] := by
  have hreachable : Reachable boxCorpus [] (ofCorpus boxCorpus []) := .new
  have htyped : ∀ e ∈ boxCorpus.entries, e.2.isWellTyped = true := by decide
  have hfills : ArityTable.FillsAll {} := by decide
  obtain ⟨hends, hleaves⟩ := declaredAmong_of_mergeUntilMisfit hreachable boxRoot {} ""
  obtain ⟨next, merged, hrun, hwritten⟩ := hends htyped nofun hfills
  obtain ⟨-, -, lines, htext, hdeclared, -⟩ := hleaves next merged hrun
  have hsurface := surface_merge_box
  rw [merge_of_mergeUntilMisfit hrun] at hsurface
  refine ⟨hreachable, htyped, hfills, next, merged, lines, hrun, hwritten, htext, hdeclared, ?_⟩
  rw [hsurface]
  decide

/-- What a file shows inside of an object that a prototype or an enumeration holds is counted, and
no line of the declarations has its name. -/
theorem unseen_leaves_of_mergeUntilMisfit_box :
    Reflected.rootOfText (.ofText "tree.json") (boxTree.write {} ++ "\n") = .ok boxRoot ∧
    ∃ next merged lines, (ofCorpus boxCorpus []).mergeUntilMisfit boxRoot = (next, .ok merged) ∧
      (rootTrace {} merged.surface).misfit? = none ∧
      declarationText? {} "" merged.surface = some (headerText "" ++ linesText lines) ∧
      (Coverage.ofSurface merged.surface).total = 4 ∧
      (rootLeaves {} merged.surface).map SitedLeaf.node = merged.surface.leaves ∧
      (rootLeaves {} merged.surface).map SitedLeaf.name = ["size", "color", "small", "hidden"] ∧
      ∀ name ∈ ["color", "hidden"], ∀ line ∈ lines, ¬name.toList <:+: line.toList := by
  refine ⟨?_, ((ofCorpus boxCorpus []).merge boxRoot).1, ((ofCorpus boxCorpus []).merge boxRoot).2,
    ["declare namespace N \x7b", "    class Box \x7b", "        size: number;",
      "        style: any;", "    \x7d", "    enum Kind \x7b", "        small,", "        extra,",
      "    \x7d", "\x7d"], ?_, ?_, ?_, ?_, ?_, ?_, ?_⟩
  · have hvalue : boxTree.isReadable = true := by decide
    exact decodeText_of_read (Json.read_write_newline _ hvalue) hvalue rfl
  · exact mergeUntilMisfit_eq (by decide) (List.forall_mem_nil _) boxRoot
  · rw [surface_merge_box]
    decide
  · rw [surface_merge_box]
    rfl
  · rw [surface_merge_box]
    decide
  · rw [surface_merge_box]
    rfl
  · rw [surface_merge_box]
    decide
  · decide

end ScriptTypings.Merger
