import ScriptTypings.Proofs.FirstOccurrences
import ScriptTypings.Proofs.Merge.Family

/-!
# Signatures of mentioned functions

An interface and its extensions list their methods by identifiers, and identifiers that differ in
case only have the same entry of the corpus. The declaration has under each name the signatures of
the functions in the order in which they are mentioned, once for each mention
(`find?_methods_mentioned`). So a function that is mentioned again has its signatures again, and
the signatures of the distinct functions are listed once each exactly if no function with signatures
is mentioned twice (`methods_expandInterface`).
-/

namespace ScriptTypings

open Text

theorem Corpus.function?_lowered (corpus : Corpus) (key : String) :
    corpus.function? (lowered key) = corpus.function? key := by
  rw [function?, function?, get?, get?, lowered_lowered]

namespace Reference

variable (r : Reference) (listing : InterfaceListing) (name : String)

/-- The keys of the functions that an interface and its extensions mention under a name. -/
def mentionedKeys : List String :=
  (((r.family listing).flatMap InterfaceListing.methods).filter fun id =>
    memberName id.asText = name ∧ (r.corpus.function? id.asText).isSome).map fun id =>
      lowered id.asText

/-- The signatures of a function, with the types that short names stand for. -/
def documented (key : String) : List Signature :=
  ((r.corpus.function? key).getD []).map r.qualifySignature

theorem filterMap_signaturesFor_interfaceParts :
    (r.interfaceParts listing).filterMap (InterfacePart.signaturesFor name) =
      (r.mentionedKeys listing name).map r.documented := by
  have hsource : ∀ source : InterfaceListing,
      (r.sourceParts source).filterMap (InterfacePart.signaturesFor name) =
        ((source.methods.filter fun id =>
          memberName id.asText = name ∧ (r.corpus.function? id.asText).isSome).map fun id =>
            lowered id.asText).map r.documented := by
    intro source
    rw [filterMap_signaturesFor_sourceParts, List.map_map]
    induction source.methods with
    | nil => rfl
    | cons id ids ih =>
      by_cases hname : memberName id.asText = name
      · cases hfunction : r.corpus.function? id.asText with
        | none => simp [hname, hfunction, ih]
        | some signatures =>
          simp [hname, hfunction, ih, documented, Corpus.function?_lowered]
      · simp [hname, ih]
  have hparts : (r.interfaceParts listing).filterMap (InterfacePart.signaturesFor name) =
      (r.family listing).flatMap fun source =>
        (r.sourceParts source).filterMap (InterfacePart.signaturesFor name) :=
    List.filterMap_flatMap
  rw [hparts, mentionedKeys, List.filter_flatMap, List.map_flatMap, List.map_flatMap]
  simp only [hsource]

/-- A method has the signatures of the functions that are mentioned under its name. -/
theorem find?_methods_mentioned (other : String) (entry : Entry) :
    NameMap.find? name (r.expandInterface other entry listing).methods =
      if r.mentionedKeys listing name = [] then none
      else some ((r.mentionedKeys listing name).flatMap r.documented) := by
  rw [find?_methods_expandInterface, filterMap_signaturesFor_interfaceParts, ← List.flatMap_def]
  simp only [List.map_eq_nil_iff]

/-- An interface is declared with the signatures of the functions that it and its extensions
mention, under each name in the order of the mentions. Each function has its signatures there once
exactly if those that are mentioned again have none. Nothing stops this if all values that are meant
as texts are texts. -/
theorem methods_expandInterface (corpus : Corpus) (overrides : List (String × Json))
    (listing : InterfaceListing) (entry : Entry) (other : String) :
    let r := ofCorpus corpus overrides
    (∀ name, NameMap.find? name (r.expandInterface other entry listing).methods =
      if r.mentionedKeys listing name = [] then none
      else some ((r.mentionedKeys listing name).flatMap r.documented)) ∧
    (∀ name, NameMap.find? name (r.expandInterface other entry listing).methods =
        (if r.mentionedKeys listing name = [] then none
        else some ((r.mentionedKeys listing name).eraseDups.flatMap r.documented)) ↔
      ∀ key, 1 < (r.mentionedKeys listing name).count key → r.documented key = []) ∧
    ((∀ e ∈ corpus.entries, e.2.isWellTyped = true) →
      (∀ o ∈ overrides, o.2.isText = true ∨ o.2.isEmpty = true) → listing.isWellTyped = true →
      (r.interfaceTrace listing).misfit? = none) := by
  intro r
  have hfind := fun name => r.find?_methods_mentioned listing name other entry
  refine ⟨hfind, fun name => ?_, fun hcorpus hoverrides hlisting => ?_⟩
  · rw [hfind, ← flatMap_eraseDups_iff]
    by_cases hnone : r.mentionedKeys listing name = []
    · simp [hnone]
    · rw [if_neg hnone, if_neg hnone, Option.some_inj]
      exact eq_comm
  · have htextual : r.IsTextual :=
      ⟨fun _ _ hget => hcorpus _ (Corpus.mem_entries_of_get? hget),
        ShortNames.isTextual_ofCorpus_of_isEmpty corpus hoverrides⟩
    exact htextual.misfit?_interfaceTrace hlisting

/-- An interface with two rows for one function, and an extension with a function of the same
name. -/
def rowsListing : InterfaceListing :=
  { methods := ["N.IRun.Go", "N.IRun.Go"], extensions := ["N.IRun2"] }

def rowsCorpus : Corpus where
  entries :=
    [("n.irun", ⟨"N.IRun", "", .interface rowsListing⟩),
     ("n.irun.go", ⟨"N.IRun.Go", "", .function [{ description := "Goes." }]⟩),
     ("n.irun2", ⟨"N.IRun2", "", .interface { methods := ["N.IRun2.Go"] }⟩),
     ("n.irun2.go", ⟨"N.IRun2.Go", "", .function [{ description := "Goes on." }]⟩)]

/-- The signature of the function with two rows is declared twice. -/
theorem methods_expandInterface_rows :
    let r := ofCorpus rowsCorpus []
    (∀ e ∈ rowsCorpus.entries, e.2.isWellTyped = true) ∧ rowsListing.isWellTyped = true ∧
    (r.interfaceTrace rowsListing).misfit? = none ∧
    NameMap.find? "go" (r.expandInterface "IRun" ⟨"N.IRun", "", .interface rowsListing⟩
        rowsListing).methods =
      some [{ description := "Goes." }, { description := "Goes." },
        { description := "Goes on." }] ∧
    r.mentionedKeys rowsListing "go" = ["n.irun.go", "n.irun.go", "n.irun2.go"] := by
  intro r
  have htyped : ∀ e ∈ rowsCorpus.entries, e.2.isWellTyped = true := by decide
  have hlisting : rowsListing.isWellTyped = true := by decide
  have hkeys : r.mentionedKeys rowsListing "go" = ["n.irun.go", "n.irun.go", "n.irun2.go"] := by
    decide +kernel
  obtain ⟨hfind, -, hends⟩ := Reference.methods_expandInterface rowsCorpus [] rowsListing
    ⟨"N.IRun", "", .interface rowsListing⟩ "IRun"
  refine ⟨htyped, hlisting, hends htyped nofun hlisting, ?_, hkeys⟩
  rw [hfind, if_neg (by rw [hkeys]; exact List.cons_ne_nil _ _), hkeys]
  decide +kernel

end Reference

end ScriptTypings
