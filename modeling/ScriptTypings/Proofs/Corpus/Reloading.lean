import ScriptTypings.Corpus.Validation
import ScriptTypings.Proofs.Corpus.Cache
import ScriptTypings.Proofs.Declarations.Snippets
import ScriptTypings.Proofs.Merge.Snippets

/-!
# Working with a cached corpus

A corpus that was saved and loaded differs from the one that was built in the order of its entries
and of their code samples. None of this is seen: checking it, merging a tree with it and writing the
declarations come to the same, as `exists_interchangeable` says.
-/

namespace ScriptTypings

/-! ### Short names -/

theorem ShortNames.isReferable_mapSnippets (f : NameMap Json → NameMap Json) (entry : Entry) :
    isReferable (entry.mapSnippets f) = isReferable entry := by
  obtain ⟨identifier, description, content⟩ := entry
  cases content <;> rfl

theorem ShortNames.referable_reloaded (corpus : Corpus) :
    referable corpus.reloaded = (referable corpus).map Entry.sortSnippets := by
  have hreferable : isReferable ∘ Entry.sortSnippets = isReferable :=
    funext (isReferable_mapSnippets NameMap.sorted)
  rw [referable, referable, Corpus.items_reloaded, NameMap.mapValues, ← hreferable,
    ← List.filter_map, hreferable, List.map_map, List.map_map]
  rfl

theorem ShortNames.ofCorpus_reloaded (corpus : Corpus) (overrides : List (String × Json)) :
    ofCorpus corpus.reloaded overrides = ofCorpus corpus overrides := by
  rw [ofCorpus, referable_reloaded, List.foldl_map]
  rfl

theorem ShortNames.misfit?_reloaded (corpus : Corpus) :
    misfit? corpus.reloaded = misfit? corpus := by
  rw [misfit?, referable_reloaded, List.flatMap_map]
  rfl

theorem Reference.ofCorpus_mapsTo_reloaded {corpus : Corpus} (h : corpus.WellFormed)
    (overrides : List (String × Json)) :
    (ofCorpus corpus overrides).MapsTo NameMap.sorted (ofCorpus corpus.reloaded overrides) :=
  ⟨ShortNames.ofCorpus_reloaded corpus overrides, Corpus.get?_reloaded h⟩

namespace Corpus

variable {corpus : Corpus}

/-! ### Checking -/

theorem documents_reloaded (h : corpus.WellFormed) (listed : Json) :
    corpus.reloaded.documents listed = corpus.documents listed := by
  rw [documents, documents, contains, contains, get?_reloaded h, Option.isSome_map]

theorem findingsOf_reloaded (h : corpus.WellFormed) (entry : Entry) :
    corpus.reloaded.findingsOf entry.sortSnippets = corpus.findingsOf entry := by
  obtain ⟨identifier, description, content⟩ := entry
  cases content with
  | function signatures => cases signatures <;> rfl
  | interface listing =>
    simp only [findingsOf, Entry.sortSnippets, Entry.mapSnippets, Content.mapSnippets,
      documents_reloaded h]
  | space listing =>
    simp only [findingsOf, Entry.sortSnippets, Entry.mapSnippets, Content.mapSnippets,
      documents_reloaded h]
  | _ => rfl

/-- Nothing is found in a reloaded corpus that was not there before, and in the same order. -/
theorem findings_reloaded (h : corpus.WellFormed) :
    corpus.reloaded.findings = corpus.findings := by
  rw [findings, findings, items_reloaded, NameMap.mapValues, List.flatMap_map]
  simp only [findingsOf_reloaded h]

/-! ### The whole work -/

/-- The same comes of working with either of two corpora: the findings, the steps of a merge and
where it stops, the coverage of the merged tree, and the declarations. -/
structure Interchangeable (corpus other : Corpus) : Prop where
  validate : ∀ strict, other.validate strict = corpus.validate strict
  misfit? : ShortNames.misfit? other = ShortNames.misfit? corpus
  trace : ∀ root overrides,
    (mergeTree root other overrides).trace = (mergeTree root corpus overrides).trace
  coverage : ∀ root overrides,
    Coverage.ofSurface (mergeTree root other overrides).surface =
      Coverage.ofSurface (mergeTree root corpus overrides).surface
  rootTrace : ∀ root overrides table,
    Declarations.rootTrace table (mergeTree root other overrides).surface =
      Declarations.rootTrace table (mergeTree root corpus overrides).surface
  declarationText? : ∀ root overrides table header,
    Declarations.declarationText? table header (mergeTree root other overrides).surface =
      Declarations.declarationText? table header (mergeTree root corpus overrides).surface

theorem interchangeable_reloaded (h : corpus.WellFormed) :
    corpus.Interchangeable corpus.reloaded := by
  have hmerge : ∀ root overrides, mergeTree root corpus.reloaded overrides =
      (mergeTree root corpus overrides).mapSnippets NameMap.sorted := fun root overrides =>
    Merger.mergeTree_mapsTo _ (Reference.ofCorpus_mapsTo_reloaded h overrides) root
  refine ⟨fun strict => ?_, ShortNames.misfit?_reloaded corpus, fun root overrides => ?_,
    fun root overrides => ?_, fun root overrides table => ?_,
    fun root overrides table header => ?_⟩
  · rw [validate, validate, findings_reloaded h]
  · rw [hmerge]
    rfl
  · rw [hmerge, Merger.Merged.mapSnippets, Coverage.ofSurface_mapSnippets]
  · rw [hmerge, Merger.Merged.mapSnippets, Declarations.rootTrace_mapSnippets]
  · rw [hmerge, Merger.Merged.mapSnippets, Declarations.declarationText?_mapSnippets]

/-- A cached corpus is as good as the one that was saved. -/
theorem exists_interchangeable (h : corpus.WellFormed) (path : Path) :
    ∃ loaded, ofText path corpus.text = .ok loaded ∧
      (∀ before after, (save corpus path).runOn before = (.ok (), after) →
        (load path).runOn after = (.ok loaded, after)) ∧
      corpus.Interchangeable loaded :=
  ⟨corpus.reloaded, ofText_text h path, fun _ _ hsave => load_save h hsave,
    interchangeable_reloaded h⟩

/-- A delegate with code samples out of order, behind the namespace that lists it. -/
def handlerCorpus : Corpus where
  entries :=
    [("n.handler", ⟨"N.Handler", "Called back.", .delegate
      { parameters := [⟨"sender", "Object", ""⟩],
        snippets := [("js", "h(o)"), ("c#", "H(o);")] }⟩),
      ("n", ⟨"N", "Names.", .space { delegates := ["N.Handler"] }⟩)]

theorem exists_interchangeable_handler : handlerCorpus.WellFormed ∧
    ∃ loaded after, (save handlerCorpus ⟨0, ["cache.json"]⟩).runOn {} = (.ok (), after) ∧
      (load ⟨0, ["cache.json"]⟩).runOn after = (.ok loaded, after) ∧
      handlerCorpus.Interchangeable loaded := by
  have h : handlerCorpus.WellFormed := ⟨by decide, by decide, by decide⟩
  have hnew : ({} : Storage).item? ["cache.json"] ≠ some .folder := by
    rw [show ({} : Storage).item? ["cache.json"] = none from rfl]
    nofun
  obtain ⟨after, hsave⟩ : ∃ after,
      (save handlerCorpus ⟨0, ["cache.json"]⟩).runOn {} = (.ok (), after) :=
    exists_save rfl rfl hnew _
  obtain ⟨loaded, -, hload, hsame⟩ := exists_interchangeable h ⟨0, ["cache.json"]⟩
  exact ⟨h, loaded, after, hsave, hload _ _ hsave, hsame⟩

end Corpus

end ScriptTypings
