import ScriptTypings.Proofs.Declarations.Descriptions
import ScriptTypings.Proofs.Declarations.Snippets
import ScriptTypings.Proofs.FirstOccurrences
import ScriptTypings.Proofs.Trace

/-!
# Overloads with the same line

Signatures that are documented apart may have the same line: outputs are folded, words are escaped,
and types are put in other names. Of these only the first one is written, with its comment
(`signatureLines_firstsBy`). So signatures whose lines are there already add nothing, as those that
differ from a signature by what belongs to no line.
-/

namespace ScriptTypings

/-- The signature without what belongs to no line. -/
def Signature.bare (signature : Signature) : Signature :=
  { signature.withoutDescriptions.mapSnippets (fun _ => []) with typeParameters := [] }

namespace Declarations

variable (table : ArityTable) (lead name : String)

/-! ### Lines and steps of one signature -/

/-- The line of a signature, with its outputs as part of the result. -/
def signatureLine (signature : Signature) : String :=
  overloadLine table lead name (foldOutputs signature)

/-- The steps of writing the line of a signature. -/
def signatureTrace (signature : Signature) : WritingTrace :=
  foldTrace signature ++ overloadTrace table (foldOutputs signature)

/-- The lines of an overload: its comment, and directly behind that its line. -/
def commentedLine (signature : Signature) : List String :=
  signatureComment (foldOutputs signature) ++ [signatureLine table lead name signature]

/-- What belongs to no line may be left out before outputs are folded or behind that. -/
theorem foldOutputs_bare (signature : Signature) :
    foldOutputs signature.bare = (foldOutputs signature).bare := by
  have hfold : ∀ s : Signature, foldOutputs { s with typeParameters := [] } =
      { foldOutputs s with typeParameters := [] } := by
    intro s
    simp only [foldOutputs]
    split <;> rfl
  rw [Signature.bare, hfold, foldOutputs_mapSnippets, foldOutputs_withoutDescriptions]
  rfl

theorem signatureLine_bare (signature : Signature) :
    signatureLine table lead name signature.bare = signatureLine table lead name signature := by
  rw [signatureLine, foldOutputs_bare]
  exact overloadLine_withoutDescriptions table lead name (foldOutputs signature)

theorem signatureLine_congr {s t : Signature} (h : s.bare = t.bare) :
    signatureLine table lead name s = signatureLine table lead name t := by
  rw [← signatureLine_bare, h, signatureLine_bare]

theorem signatureTrace_bare (signature : Signature) :
    signatureTrace table signature.bare = signatureTrace table signature := by
  rw [signatureTrace, foldOutputs_bare]
  exact congrArg₂ (· ++ ·) (foldTrace_withoutDescriptions signature)
    (overloadTrace_withoutDescriptions table (foldOutputs signature))

theorem signatureTrace_congr {s t : Signature} (h : s.bare = t.bare) :
    signatureTrace table s = signatureTrace table t := by
  rw [← signatureTrace_bare, h, signatureTrace_bare]

/-! ### The overloads that are written -/

/-- The signatures whose lines are not among those written before. -/
def unwritten (written : List String) (signatures : List Signature) : List Signature :=
  signatures.filter fun s => !written.contains (signatureLine table lead name s)

variable {table lead name} {written : List String} {signature : Signature}
  {signatures more : List Signature}

theorem unwritten_cons_of_mem (h : signatureLine table lead name signature ∈ written) :
    unwritten table lead name written (signature :: signatures) =
      unwritten table lead name written signatures :=
  List.filter_cons_of_neg (by simpa using h)

theorem firstsBy_unwritten_cons (h : signatureLine table lead name signature ∉ written) :
    let line := signatureLine table lead name
    firstsBy line (unwritten table lead name written (signature :: signatures)) =
      signature :: firstsBy line (unwritten table lead name (line signature :: written)
        signatures) := by
  intro line
  rw [unwritten, List.filter_cons_of_pos (by simpa using h), firstsBy_cons, List.filter_filter]
  simp only [unwritten, List.contains_cons, Bool.not_or]
  rfl

theorem unwritten_nil (signatures : List Signature) :
    unwritten table lead name [] signatures = signatures :=
  List.filter_eq_self.mpr fun _ _ => rfl

/-- A line that was written before is put together again, and left out. -/
theorem overloads_cons_of_mem (h : signatureLine table lead name signature ∈ written)
    (signatures : List Signature) :
    overloadLines table lead name written (signature :: signatures) =
      overloadLines table lead name written signatures ∧
    overloadsTrace table lead name written (signature :: signatures) =
      signatureTrace table signature ++ overloadsTrace table lead name written signatures := by
  have hwritten := List.contains_iff_mem.mpr h
  exact ⟨if_pos hwritten, congrArg (signatureTrace table signature ++ ·) (if_pos hwritten)⟩

/-- A line that was not written before is written behind its comment. -/
theorem overloads_cons_of_not_mem (h : signatureLine table lead name signature ∉ written)
    (signatures : List Signature) :
    let rest := signatureLine table lead name signature :: written
    overloadLines table lead name written (signature :: signatures) =
      commentedLine table lead name signature ++ overloadLines table lead name rest signatures ∧
    overloadsTrace table lead name written (signature :: signatures) =
      signatureTrace table signature ++ (signatureCommentTrace (foldOutputs signature) ++
        overloadsTrace table lead name rest signatures) := by
  have hfresh := mt List.contains_iff_mem.mp h
  constructor
  · rw [commentedLine, List.append_assoc]
    exact if_neg hfresh
  · exact congrArg (signatureTrace table signature ++ ·) (if_neg hfresh)

/-- The lines are those of the first signatures that have them. -/
theorem overloadLines_eq_flatMap :
    overloadLines table lead name written signatures =
      (firstsBy (signatureLine table lead name)
        (unwritten table lead name written signatures)).flatMap
          (commentedLine table lead name) := by
  induction signatures generalizing written with
  | nil => rfl
  | cons signature signatures ih =>
    by_cases h : signatureLine table lead name signature ∈ written
    · rw [(overloads_cons_of_mem h signatures).1, unwritten_cons_of_mem h, ih]
    · rw [(overloads_cons_of_not_mem h signatures).1, firstsBy_unwritten_cons h,
        List.flatMap_cons, ih]

/-- All signatures are put into lines, and those that are written have their comments. -/
theorem misfit?_overloadsTrace_eq_none_iff :
    (overloadsTrace table lead name written signatures).misfit? = none ↔
      (∀ s ∈ signatures, (signatureTrace table s).misfit? = none) ∧
      ∀ s ∈ firstsBy (signatureLine table lead name)
          (unwritten table lead name written signatures),
        (signatureCommentTrace (foldOutputs s)).misfit? = none := by
  induction signatures generalizing written with
  | nil => exact ⟨fun _ => ⟨nofun, nofun⟩, fun _ => rfl⟩
  | cons signature signatures ih =>
    rw [List.forall_mem_cons]
    by_cases h : signatureLine table lead name signature ∈ written
    · rw [(overloads_cons_of_mem h signatures).2, unwritten_cons_of_mem h,
        Trace.misfit?_append_eq_none, ih, and_assoc]
    · rw [(overloads_cons_of_not_mem h signatures).2, firstsBy_unwritten_cons h,
        List.forall_mem_cons, Trace.misfit?_append_eq_none, Trace.misfit?_append_eq_none, ih,
        and_assoc]
      exact and_congr_right fun _ => and_left_comm

/-- Signatures whose lines were written before are put into lines again, and left out. -/
theorem overloads_of_forall_mem (h : ∀ s ∈ more, signatureLine table lead name s ∈ written) :
    overloadLines table lead name written more = [] ∧
    overloadsTrace table lead name written more = more.flatMap (signatureTrace table) := by
  induction more with
  | nil => exact ⟨rfl, rfl⟩
  | cons s more ih =>
    obtain ⟨hs, hmore⟩ := List.forall_mem_cons.mp h
    obtain ⟨hlines, htrace⟩ := overloads_cons_of_mem hs more
    rw [hlines, htrace, List.flatMap_cons, (ih hmore).2]
    exact ⟨(ih hmore).1, rfl⟩

/-- The same for those whose lines are written for signatures in front of them. -/
theorem overloads_append
    (h : ∀ s ∈ more, signatureLine table lead name s ∈
      written ++ signatures.map (signatureLine table lead name)) :
    overloadLines table lead name written (signatures ++ more) =
      overloadLines table lead name written signatures ∧
    overloadsTrace table lead name written (signatures ++ more) =
      overloadsTrace table lead name written signatures ++
        more.flatMap (signatureTrace table) := by
  induction signatures generalizing written with
  | nil => exact overloads_of_forall_mem fun s hs => by simpa using h s hs
  | cons signature signatures ih =>
    rw [List.cons_append]
    -- the line of the first signature is among those written, before this step or behind it
    by_cases hmem : signatureLine table lead name signature ∈ written
    · have hrest : ∀ s ∈ more, signatureLine table lead name s ∈
          written ++ signatures.map (signatureLine table lead name) := fun s hs => by
        have hline := h s hs
        simp only [List.map_cons, List.mem_append, List.mem_cons] at hline ⊢
        rcases hline with hline | hline | hline
        · exact .inl hline
        · exact .inl (hline ▸ hmem)
        · exact .inr hline
      obtain ⟨hlines, htrace⟩ := ih hrest
      obtain ⟨hskip, hstep⟩ := overloads_cons_of_mem hmem signatures
      obtain ⟨hskip', hstep'⟩ := overloads_cons_of_mem hmem (signatures ++ more)
      rw [hskip', hstep', hskip, hstep, hlines, htrace, List.append_assoc]
      exact ⟨rfl, rfl⟩
    · have hrest : ∀ s ∈ more, signatureLine table lead name s ∈
          signatureLine table lead name signature :: written ++
            signatures.map (signatureLine table lead name) := fun s hs => by
        have hline := h s hs
        simp only [List.map_cons, List.mem_append, List.mem_cons] at hline ⊢
        rwa [or_assoc, or_left_comm]
      obtain ⟨hlines, htrace⟩ := ih hrest
      obtain ⟨hkeep, hstep⟩ := overloads_cons_of_not_mem hmem signatures
      obtain ⟨hkeep', hstep'⟩ := overloads_cons_of_not_mem hmem (signatures ++ more)
      rw [hkeep', hstep', hkeep, hstep, hlines, htrace]
      simp only [List.append_assoc, and_self]

/-! ### The lines of a function -/

variable (table lead name) in
theorem signatureLines_of_ne_nil (h : signatures ≠ []) :
    signatureLines table lead name signatures = overloadLines table lead name [] signatures :=
  if_neg (mt List.isEmpty_iff.mp h)

variable (table lead name) in
theorem signatureLines_eq_flatMap (h : signatures ≠ []) :
    signatureLines table lead name signatures =
      (firstsBy (signatureLine table lead name) signatures).flatMap
        (commentedLine table lead name) := by
  rw [signatureLines_of_ne_nil table lead name h, overloadLines_eq_flatMap, unwritten_nil]

theorem misfit?_signaturesTrace_append
    (h : (signaturesTrace table lead name signatures).misfit? = none →
      ∀ s ∈ more, (signatureTrace table s).misfit? = none) :
    ((signaturesTrace table lead name signatures) ++
      more.flatMap (signatureTrace table)).misfit? =
        (signaturesTrace table lead name signatures).misfit? := by
  rw [Trace.misfit?_append]
  cases hmisfit : (signaturesTrace table lead name signatures).misfit? with
  | some misfit => rfl
  | none => exact Trace.misfit?_flatMap_eq_none (h hmisfit)

theorem misfit?_signaturesTrace_eq_none_iff :
    (signaturesTrace table lead name signatures).misfit? = none ↔
      (∀ s ∈ signatures, (signatureTrace table s).misfit? = none) ∧
      ∀ s ∈ firstsBy (signatureLine table lead name) signatures,
        (signatureCommentTrace (foldOutputs s)).misfit? = none := by
  rw [signaturesTrace, misfit?_overloadsTrace_eq_none_iff, unwritten_nil]

/-- Signatures that are put into lines that are there already, or differ from one that is there by
what belongs to no line, change nothing behind the others. -/
theorem signatureLines_append (hsome : signatures ≠ [])
    (h : ∀ s ∈ more, signatureLine table lead name s ∈
        signatures.map (signatureLine table lead name) ∧
          (signatureTrace table s).misfit? = none ∨
      ∃ t ∈ signatures, s.bare = t.bare) :
    signatureLines table lead name (signatures ++ more) =
      signatureLines table lead name signatures ∧
    (signaturesTrace table lead name (signatures ++ more)).misfit? =
      (signaturesTrace table lead name signatures).misfit? := by
  have hthere : ∀ s ∈ more, signatureLine table lead name s ∈
      [] ++ signatures.map (signatureLine table lead name) := by
    intro s hs
    rcases h s hs with ⟨hline, -⟩ | ⟨t, ht, halike⟩
    · exact hline
    · exact List.mem_map.mpr ⟨t, ht, signatureLine_congr table lead name halike.symm⟩
  have hput : (signaturesTrace table lead name signatures).misfit? = none →
      ∀ s ∈ more, (signatureTrace table s).misfit? = none := by
    intro hnone s hs
    rcases h s hs with ⟨-, hput⟩ | ⟨t, ht, halike⟩
    · exact hput
    · rw [signatureTrace_congr table halike]
      exact (misfit?_signaturesTrace_eq_none_iff.mp hnone).1 t ht
  obtain ⟨hsame, htrace⟩ := overloads_append hthere
  have hall : signatures ++ more ≠ [] := List.append_ne_nil_of_left_ne_nil hsome more
  rw [signatureLines_of_ne_nil table lead name hall,
    signatureLines_of_ne_nil table lead name hsome, signaturesTrace, htrace]
  exact ⟨hsame, misfit?_signaturesTrace_append hput⟩

/-- The lines of a function are the first occurrences of those of its signatures, in their order and
each behind the comment of the first signature that has it. They are written if every signature can
be put into its line, and the comments of the first ones can be written. Signatures that are put
into lines that are there already, or differ from one that is there by what belongs to no line,
change neither the lines nor where writing stops. -/
theorem signatureLines_firstsBy (table : ArityTable) (lead name : String)
    {signatures : List Signature} (hsome : signatures ≠ []) :
    let line := signatureLine table lead name
    let kept := firstsBy line signatures
    signatureLines table lead name signatures =
      kept.flatMap (fun s => signatureComment (foldOutputs s) ++ [line s]) ∧
    (kept.map line).Nodup ∧ kept.map line = (signatures.map line).eraseDups ∧
    kept.Sublist signatures ∧
    (∀ s ∈ kept, signatures.find? (fun t => line t == line s) = some s) ∧
    ((signaturesTrace table lead name signatures).misfit? = none ↔
      (∀ s ∈ signatures, (signatureTrace table s).misfit? = none) ∧
      ∀ s ∈ kept, (signatureCommentTrace (foldOutputs s)).misfit? = none) ∧
    ∀ more, (∀ s ∈ more,
        line s ∈ signatures.map line ∧ (signatureTrace table s).misfit? = none ∨
        ∃ t ∈ signatures, s.bare = t.bare) →
      signatureLines table lead name (signatures ++ more) =
        signatureLines table lead name signatures ∧
      (signaturesTrace table lead name (signatures ++ more)).misfit? =
        (signaturesTrace table lead name signatures).misfit? := by
  intro line kept
  have hkeys : kept.map line = (signatures.map line).eraseDups := map_firstsBy line signatures
  have hnodup : (kept.map line).Nodup := hkeys ▸ nodup_eraseDups _
  exact ⟨signatureLines_eq_flatMap table lead name hsome, hnodup, hkeys,
    firstsBy_sublist line signatures, fun s hs => find?_of_mem_firstsBy hs,
    misfit?_signaturesTrace_eq_none_iff, fun more hmore => signatureLines_append hsome hmore⟩

/-- A function that gives a number as its output. -/
def countOutput : Signature where
  description := "Counts the items."
  parameters := [{ name := "count [out]", typeName := "Number" }]

/-- The same function with the number as its result. -/
def countResult : Signature where
  description := "Gives the number of items."
  returned := .typed "Number" ""

/-- Two signatures that are documented apart have one line, with the comment of the first. -/
theorem signatureLines_firstsBy_count :
    signatureLines {} "" "count" [countOutput, countResult] =
      ["/** Counts the items. */", "count(): number;"] ∧
    signatureLines {} "" "count" ([countOutput, countResult] ++ [countResult]) =
      signatureLines {} "" "count" [countOutput, countResult] := by
  obtain ⟨hlines, -, -, -, -, -, hmore⟩ := signatureLines_firstsBy {} "" "count"
    (List.cons_ne_nil countOutput [countResult])
  refine ⟨by rw [hlines]; decide +kernel, (hmore [countResult] fun s hs => .inr ?_).1⟩
  rw [List.mem_singleton] at hs
  exact ⟨countResult, by simp, by rw [hs]⟩

end Declarations

end ScriptTypings
