import ScriptTypings.Markup.Reader
import ScriptTypings.Proofs.Corpus.Accumulation
import ScriptTypings.Proofs.Corpus.Linking
import ScriptTypings.Proofs.Page.Keys

/-!
# What a build comes to

A build is a fold over the documents in the order of their paths. The first document that aborts it
is the one that is reported, whatever stands behind it. If none does, then the entries of all parsed
documents are added in this order and the extensions are recorded, and the report counts every
document once: `build_foldsInOrder` says so of every folder of documents.
-/

namespace ScriptTypings

open Text

namespace Corpus

/-! ### Documents one by one -/

/-- A document aborts a build for a cause: it cannot be read, and this is not just because its title
is unknown and the build not strict. -/
def Aborts (reader : PageReader) (options : DocumentOptions) (strict : Bool) (source : Source)
    (cause : BuildCause) : Prop :=
  readSource reader options source = .error cause ∧
    (strict = true ∨ ∀ title, cause ≠ .page (.unknownTitle title))

/-- The entries that a document adds to a corpus. -/
def entriesOf (reader : PageReader) (options : DocumentOptions) (source : Source) : Page.Entries :=
  match readSource reader options source with
  | .ok ⟨_, _, .entries found⟩ => found
  | _ => []

/-- Why a document that aborts nothing is skipped; none if it is parsed. -/
def skipReason? (reader : PageReader) (options : DocumentOptions) (source : Source) :
    Option SkipReason :=
  match readSource reader options source with
  | .ok ⟨_, _, .entries _⟩ => none
  | .ok ⟨_, _, .skipped reason⟩ => some reason
  | .error _ => some .unknownTitle

/-- The report about documents that abort nothing. -/
def reportOf (reader : PageReader) (options : DocumentOptions) (sources : List Source) :
    BuildReport where
  total := sources.length
  parsed := sources.countP fun source => (skipReason? reader options source).isNone
  skipped := sources.filterMap fun source =>
    (skipReason? reader options source).map fun reason => (source.1, reason)

/-- The corpus of documents that abort nothing, without recorded extensions. -/
def corpusOf (reader : PageReader) (options : DocumentOptions) (sources : List Source) : Corpus :=
  ofPairs (sources.flatMap (entriesOf reader options))

/-- Every document is either parsed or skipped. -/
theorem total_reportOf (reader : PageReader) (options : DocumentOptions) (sources : List Source) :
    (reportOf reader options sources).parsed + (reportOf reader options sources).skipped.length =
      sources.length := by
  simp only [reportOf]
  induction sources with
  | nil => rfl
  | cons source sources ih =>
    rw [List.countP_cons, List.filterMap_cons, List.length_cons, ← ih]
    cases skipReason? reader options source with
    | none => simp; omega
    | some reason => simp; omega

/-! ### Reading documents -/

/-- What has been read behind some more documents that abort nothing. -/
def BuildState.after (s : BuildState) (reader : PageReader) (options : DocumentOptions)
    (sources : List Source) : BuildState where
  corpus := s.corpus.addAll (sources.flatMap (entriesOf reader options))
  report :=
    { s.report with
      parsed := s.report.parsed + (reportOf reader options sources).parsed
      skipped := s.report.skipped ++ (reportOf reader options sources).skipped }

theorem BuildState.after_append (s : BuildState) (reader : PageReader) (options : DocumentOptions)
    (sources sources' : List Source) :
    s.after reader options (sources ++ sources') =
      (s.after reader options sources).after reader options sources' := by
  simp only [after, reportOf, addAll, List.flatMap_append, List.foldl_append, List.countP_append,
    List.filterMap_append, Nat.add_assoc, List.append_assoc]

variable {reader : PageReader} {options : DocumentOptions} {strict : Bool} {source : Source}

theorem take_of_aborts {cause : BuildCause} (h : Aborts reader options strict source cause)
    (s : BuildState) :
    s.take strict source.1 (readSource reader options source) = .error (.build source.1 cause) := by
  obtain ⟨hread, hstrict⟩ := h
  rw [hread]
  cases cause with
  | notText => rfl
  | page e =>
    cases e with
    | unknownTitle title =>
      have hon : strict = true := hstrict.resolve_right fun hother => hother title rfl
      rw [BuildState.take, if_pos hon]
    | _ => rfl

/-- A document that aborts nothing is added, or recorded as skipped. -/
theorem take_of_not_aborts (h : ∀ cause, ¬ Aborts reader options strict source cause)
    (s : BuildState) :
    ∃ records, s.take strict source.1 (readSource reader options source) =
      .ok (s.after reader options [source], records) := by
  have hafter : s.after reader options [source] =
      { corpus := s.corpus.addAll (entriesOf reader options source)
        report :=
          { s.report with
            parsed := s.report.parsed + if (skipReason? reader options source).isNone then 1 else 0
            skipped := s.report.skipped ++
              ((skipReason? reader options source).map fun reason =>
                (source.1, reason)).toList } } := by
    simp only [BuildState.after, reportOf, List.flatMap_singleton, List.countP_singleton,
      List.filterMap_cons, List.filterMap_nil]
    cases skipReason? reader options source <;> rfl
  rw [hafter]
  cases hread : readSource reader options source with
  | ok document =>
    obtain ⟨title, kind?, outcome⟩ := document
    cases outcome with
    | entries found =>
      refine ⟨[], ?_⟩
      rw [entriesOf, skipReason?, hread]
      simp [BuildState.take, BuildState.accept]
    | skipped reason =>
      rw [entriesOf, skipReason?, hread]
      exact ⟨_, rfl⟩
  | error cause =>
    -- the only error that aborts nothing is an unknown title in a build that is not strict
    have hcause : ¬ (strict = true ∨ ∀ title, cause ≠ .page (.unknownTitle title)) := fun hstrict =>
      h cause ⟨hread, hstrict⟩
    obtain ⟨hoff, hother⟩ := not_or.mp hcause
    obtain ⟨title, htitle⟩ := Classical.not_forall.mp hother
    obtain rfl := Classical.not_not.mp htitle
    rw [entriesOf, skipReason?, hread, BuildState.take, if_neg hoff]
    exact ⟨_, rfl⟩

/-- The first document that aborts the build is reported. -/
theorem readSources_of_aborts {cause : BuildCause} {before : List Source}
    (hbefore : ∀ other ∈ before, ∀ cause, ¬ Aborts reader options strict other cause)
    (h : Aborts reader options strict source cause) (after : List Source) (index : Nat)
    (s : BuildState) (session : Session) :
    ((readSources reader options strict index s (before ++ source :: after)).runOn session).1 =
      .error (.build source.1 cause) := by
  induction before generalizing index s session with
  | nil =>
    -- the failure comes before anything of `after` is looked at
    rw [List.nil_append, readSources, Action.runOn_bind, Action.runOn_log]
    dsimp only
    rw [take_of_aborts h]
    rfl
  | cons other before ih =>
    obtain ⟨records, htake⟩ := take_of_not_aborts (hbefore other List.mem_cons_self) s
    rw [List.cons_append, readSources, Action.runOn_bind, Action.runOn_log]
    dsimp only
    rw [htake]
    exact ih (fun other hother => hbefore other (List.mem_cons_of_mem _ hother)) _ _ _

/-- Documents that abort nothing are all read. -/
theorem readSources_of_not_aborts {sources : List Source}
    (h : ∀ source ∈ sources, ∀ cause, ¬ Aborts reader options strict source cause) (index : Nat)
    (s : BuildState) (session : Session) :
    ∃ between, (readSources reader options strict index s sources).runOn session =
      (.ok (s.after reader options sources), between) := by
  induction sources generalizing index s session with
  | nil =>
    have hafter : s.after reader options [] = s := by
      simp [BuildState.after, reportOf, addAll]
    exact ⟨session, by rw [hafter]; rfl⟩
  | cons source sources ih =>
    obtain ⟨records, htake⟩ := take_of_not_aborts (h source List.mem_cons_self) s
    have hafter : s.after reader options (source :: sources) =
        (s.after reader options [source]).after reader options sources :=
      s.after_append reader options [source] sources
    rw [readSources, Action.runOn_bind, Action.runOn_log, hafter]
    dsimp only
    rw [htake]
    exact ih (fun other hother => h other (List.mem_cons_of_mem _ hother)) _ _ _

/-! ### The corpus -/

theorem wellTyped_entriesOf (reader : PageReader) (options : DocumentOptions) (source : Source) :
    (entriesOf reader options source).WellTyped := by
  have hread := gives_readSource reader options source
  unfold entriesOf
  split
  · rename_i title kind found hfound
    exact hread _ hfound found rfl
  · exact nofun

theorem wellFormed_corpusOf (reader : PageReader) (options : DocumentOptions)
    (sources : List Source) :
    (corpusOf reader options sources).WellFormed := by
  apply wellFormed_ofPairs
  intro p hp
  obtain ⟨source, -, hsource⟩ := List.mem_flatMap.mp hp
  exact wellTyped_entriesOf reader options source p hsource

/-- The help identifier of a document does not have the capital letter that becomes two characters
in lower case. -/
def HasPlainId (reader : PageReader) (source : Source) : Prop :=
  ∀ text rawId, textOfBytes? source.2 = some text →
    Document.helpId? (reader text) = some rawId → 'İ' ∉ rawId.toList

theorem named_entriesOf (hroot : options.root = "windows") (h : HasPlainId reader source) :
    (entriesOf reader options source).Named := by
  unfold entriesOf readSource
  cases htext : textOfBytes? source.2 with
  | none => exact nofun
  | some text =>
    have hparse := Document.gives_parse_named hroot fun rawId hrawId => h text rawId htext hrawId
    dsimp only
    cases hdocument : Document.parse reader options text with
    | error e => exact nofun
    | ok document =>
      obtain ⟨title, kind?, outcome⟩ := document
      cases outcome with
      | entries found => exact hparse _ hdocument found rfl
      | skipped reason => exact nofun

/-- What is added under keys that are not empty stands under such keys. -/
theorem named_addAll {corpus : Corpus} (h : ∀ e ∈ corpus.entries, e.1 ≠ "")
    {pairs : List (String × Entry)} (hpairs : ∀ p ∈ pairs, p.1 ≠ "") :
    ∀ e ∈ (corpus.addAll pairs).entries, e.1 ≠ "" := by
  induction pairs generalizing corpus with
  | nil => exact h
  | cons pair pairs ih =>
    refine ih (fun e he => ?_) fun p hp => hpairs p (List.mem_cons_of_mem _ hp)
    rcases NameMap.mem_put he with rfl | he
    · exact lowered_ne_empty (hpairs pair List.mem_cons_self)
    · exact h e he

/-- Below the usual root no interface has an empty key, if the help identifiers do not have the
letter that becomes two characters in lower case. -/
theorem hasUnnamedInterface_corpusOf (hroot : options.root = "windows") {sources : List Source}
    (h : ∀ source ∈ sources, HasPlainId reader source) :
    (corpusOf reader options sources).hasUnnamedInterface = false := by
  apply hasUnnamedInterface_eq_false
  have hstart : ∀ e ∈ ({} : Corpus).entries, e.1 ≠ "" := nofun
  refine named_addAll hstart fun p hp => ?_
  obtain ⟨source, hsource, hp⟩ := List.mem_flatMap.mp hp
  exact named_entriesOf hroot (h source hsource) p hp

/-! ### Signatures -/

/-- The entries that are added under a key, in order. -/
def under (key : String) (pairs : List (String × Entry)) : List Entry :=
  (pairs.filter fun p => lowered p.1 = lowered key).map Prod.snd

/-- Where all that is added under a key are functions, the corpus has the signatures of all of them,
in the order in which they are added. -/
theorem function?_ofPairs {pairs : List (String × Entry)} {key : String}
    (hsome : under key pairs ≠ []) (h : ∀ e ∈ under key pairs, isFunction e = true) :
    (ofPairs pairs).function? key = some ((under key pairs).flatMap signaturesOf) := by
  have hrun : finalRun (under key pairs) = under key pairs := List.rtakeWhile_eq_self_iff.mpr h
  have hget : (ofPairs pairs).get? key = gathered (under key pairs) :=
    find?_ofPairs pairs (lowered key)
  rw [function?, hget, gathered, hrun]
  cases hunder : under key pairs with
  | nil => exact absurd hunder hsome
  | cons first rest => rfl

/-- To record extensions changes no signatures. -/
theorem function?_withExtensions (corpus : Corpus) (key : String) :
    corpus.withExtensions.function? key = corpus.function? key := by
  rw [function?, function?, get?_withExtensions]
  cases corpus.get? key with
  | none => rfl
  | some entry =>
    obtain ⟨identifier, description, content⟩ := entry
    cases content with
    | interface listing =>
      obtain ⟨extensions, hlinked⟩ :=
        corpus.exists_linkEntry_interface (lowered key) identifier description listing
      rw [Option.map_some, hlinked]
    | _ => rfl

end Corpus

/-! ### The order of paths -/

namespace Path

theorem precedes_cons (a b : String) (as bs : List String) :
    precedes (a :: as) (b :: bs) = true ↔ a = b ∧ precedes as bs = true ∨ a ≠ b ∧ a ≤ b := by
  rw [precedes]
  by_cases h : a = b
  · simp [h]
  · simp [h]

theorem precedes_trans {a b c : List String} (hab : precedes a b = true)
    (hbc : precedes b c = true) : precedes a c = true := by
  induction a generalizing b c with
  | nil => rfl
  | cons x a ih =>
    cases b with
    | nil => cases hab
    | cons y b =>
      cases c with
      | nil => cases hbc
      | cons z c =>
        rw [precedes_cons] at hab hbc ⊢
        rcases hab with ⟨rfl, hab⟩ | ⟨hxy, hle⟩
        · rcases hbc with ⟨rfl, hbc⟩ | hbc
          · exact .inl ⟨rfl, ih hab hbc⟩
          · exact .inr hbc
        · rcases hbc with ⟨rfl, hbc⟩ | ⟨hyz, hle'⟩
          · exact .inr ⟨hxy, hle⟩
          · refine .inr ⟨?_, String.le_trans hle hle'⟩
            rintro rfl
            exact hxy (String.le_antisymm hle hle')

theorem precedes_total (a b : List String) : precedes a b = true ∨ precedes b a = true := by
  induction a generalizing b with
  | nil => exact .inl rfl
  | cons x a ih =>
    cases b with
    | nil => exact .inr rfl
    | cons y b =>
      rw [precedes_cons, precedes_cons]
      by_cases h : x = y
      · obtain rfl := h
        exact (ih b).imp (fun hab => .inl ⟨rfl, hab⟩) fun hba => .inl ⟨rfl, hba⟩
      · exact (String.le_total x y).imp (fun hxy => .inr ⟨h, hxy⟩) fun hyx => .inr ⟨Ne.symm h, hyx⟩

end Path

theorem Storage.pairwise_filesBelow (storage : Storage) (folder : Path) :
    (storage.filesBelow folder).Pairwise fun a b => Path.precedes a.1 b.1 = true := by
  unfold filesBelow
  split
  · exact .nil
  · apply List.pairwise_mergeSort
    · intro a b c hab hbc
      exact Path.precedes_trans hab hbc
    · intro a b
      rw [Bool.or_eq_true]
      exact Path.precedes_total a.1 b.1

namespace Corpus

/-! ### Builds -/

variable {reader : PageReader} {options : DocumentOptions} {strict : Bool} {sources : List Source}
  {session : Session}

/-- What aborts a build that is not strict aborts a strict build too. -/
theorem aborts_strict {source : Source} {cause : BuildCause}
    (h : Aborts reader options false source cause) : Aborts reader options true source cause :=
  ⟨h.1, .inl rfl⟩

/-- Some document aborts a build first, or none does. -/
theorem aborts_cases (reader : PageReader) (options : DocumentOptions) (strict : Bool)
    (sources : List Source) :
    (∀ source ∈ sources, ∀ cause, ¬ Aborts reader options strict source cause) ∨
    ∃ before source after cause, sources = before ++ source :: after ∧
      (∀ other ∈ before, ∀ cause, ¬ Aborts reader options strict other cause) ∧
      Aborts reader options strict source cause := by
  induction sources with
  | nil => exact .inl nofun
  | cons first sources ih =>
    by_cases hfirst : ∃ cause, Aborts reader options strict first cause
    · obtain ⟨cause, hcause⟩ := hfirst
      exact .inr ⟨[], first, sources, cause, rfl, nofun, hcause⟩
    · have hkeep : ∀ cause, ¬ Aborts reader options strict first cause := not_exists.mp hfirst
      rcases ih with hnone | ⟨before, source, after, cause, hsources, hbefore, hcause⟩
      · exact .inl (List.forall_mem_cons.mpr ⟨hkeep, hnone⟩)
      · refine .inr ⟨first :: before, source, after, cause, ?_, ?_, hcause⟩
        · rw [hsources]
          rfl
        · exact List.forall_mem_cons.mpr ⟨hkeep, hbefore⟩

theorem ofSources_of_aborts {before after : List Source} {source : Source} {cause : BuildCause}
    (hbefore : ∀ other ∈ before, ∀ cause, ¬ Aborts reader options strict other cause)
    (h : Aborts reader options strict source cause) :
    ((ofSources reader options strict (before ++ source :: after)).runOn session).1 =
      .error (.build source.1 cause) := by
  have hread := readSources_of_aborts hbefore h after 1
    { report := { total := (before ++ source :: after).length } } session
  rw [ofSources, Action.runOn_bind]
  rcases hrun : (readSources reader options strict 1
      { report := { total := (before ++ source :: after).length } }
      (before ++ source :: after)).runOn session with ⟨failure | s, between⟩
  · rw [hrun] at hread
    have hfailure : failure = .build source.1 cause := Except.error.inj hread
    rw [hfailure]
  · rw [hrun] at hread
    cases hread

/-- Documents that abort nothing leave the corpus of their entries and the report about them. -/
theorem readSources_start
    (h : ∀ source ∈ sources, ∀ cause, ¬ Aborts reader options strict source cause)
    (session : Session) : ∃ between,
      (readSources reader options strict 1 { report := { total := sources.length } } sources).runOn
          session =
        (.ok { corpus := corpusOf reader options sources,
               report := reportOf reader options sources }, between) := by
  obtain ⟨between, hread⟩ := readSources_of_not_aborts h 1
    { report := { total := sources.length } } session
  have hafter : BuildState.after { report := { total := sources.length } } reader options sources =
      { corpus := corpusOf reader options sources, report := reportOf reader options sources } := by
    simp [BuildState.after, reportOf, corpusOf, ofPairs]
  exact ⟨between, by rw [hread, hafter]⟩

theorem ofSources_of_not_aborts
    (h : ∀ source ∈ sources, ∀ cause, ¬ Aborts reader options strict source cause)
    (hnamed : (corpusOf reader options sources).hasUnnamedInterface = false) :
    ((ofSources reader options strict sources).runOn session).1 =
      .ok ((corpusOf reader options sources).withExtensions, reportOf reader options sources) := by
  obtain ⟨between, hread⟩ := readSources_start h session
  obtain ⟨trace, hlinked, hmisfit⟩ :=
    (wellFormed_corpusOf reader options sources).exists_linked hnamed
  rw [ofSources, Action.runOn_bind, hread]
  dsimp only
  rw [hlinked]
  dsimp only
  rw [hmisfit]
  rfl

theorem ofSources_of_unnamed
    (h : ∀ source ∈ sources, ∀ cause, ¬ Aborts reader options strict source cause)
    (hunnamed : (corpusOf reader options sources).hasUnnamedInterface = true) :
    ((ofSources reader options strict sources).runOn session).1 = .error .unnamedInterface := by
  obtain ⟨between, hread⟩ := readSources_start h session
  rw [ofSources, Action.runOn_bind, hread]
  dsimp only
  rw [linkExtensions?, hunnamed]
  rfl

/-- A build that gives something has no document that aborts it, and no interface with an empty
key. -/
theorem not_aborts_of_ofSources {built : Corpus × BuildReport}
    (hok : ((ofSources reader options strict sources).runOn session).1 = .ok built) :
    (∀ source ∈ sources, ∀ cause, ¬ Aborts reader options strict source cause) ∧
      (corpusOf reader options sources).hasUnnamedInterface = false := by
  rcases aborts_cases reader options strict sources with
    hnone | ⟨before, source, after, cause, rfl, hbefore, hcause⟩
  · refine ⟨hnone, Bool.eq_false_iff.mpr fun hunnamed => ?_⟩
    rw [ofSources_of_unnamed hnone hunnamed] at hok
    cases hok
  · rw [ofSources_of_aborts hbefore hcause] at hok
    cases hok

/-- What a build comes to, as a fold over the documents in their order; `outcome strict` is the
outcome of the build, strict or not. -/
structure FoldsInOrder (reader : PageReader) (options : DocumentOptions) (sources : List Source)
    (outcome : Bool → Except Failure (Corpus × BuildReport)) : Prop where
  /-- The first document that aborts the build is reported, whatever its cause and what follows. -/
  aborted : ∀ strict before source after cause, sources = before ++ source :: after →
    (∀ other ∈ before, ∀ cause, ¬ Aborts reader options strict other cause) →
    Aborts reader options strict source cause → outcome strict = .error (.build source.1 cause)
  /-- If no document aborts the build and no interface has an empty key, then the entries of all
  documents are added in order and the extensions are recorded. -/
  complete : ∀ strict, (∀ source ∈ sources, ∀ cause, ¬ Aborts reader options strict source cause) →
    (corpusOf reader options sources).hasUnnamedInterface = false →
    ∃ linked, (corpusOf reader options sources).linkExtensions? = some linked ∧
      outcome strict = .ok (linked.corpus, reportOf reader options sources)
  /-- An interface with an empty key ends a build that no document aborts. -/
  unnamed : ∀ strict, (∀ source ∈ sources, ∀ cause, ¬ Aborts reader options strict source cause) →
    (corpusOf reader options sources).hasUnnamedInterface = true →
    outcome strict = .error .unnamedInterface
  /-- Below the usual root only a help identifier with the capital letter that becomes two
  characters in lower case can give an interface an empty key. -/
  named : options.root = "windows" → (∀ source ∈ sources, HasPlainId reader source) →
    (corpusOf reader options sources).hasUnnamedInterface = false
  /-- Every document is counted once. -/
  counted : (reportOf reader options sources).total =
    (reportOf reader options sources).parsed + (reportOf reader options sources).skipped.length
  /-- The signatures of a function stand in the order of the documents that give them. -/
  signatures : ∀ strict corpus report key, outcome strict = .ok (corpus, report) →
    under key (sources.flatMap (entriesOf reader options)) ≠ [] →
    (∀ e ∈ under key (sources.flatMap (entriesOf reader options)), isFunction e = true) →
    corpus.function? key =
      some ((under key (sources.flatMap (entriesOf reader options))).flatMap signaturesOf)
  /-- What a strict build gives, a build that is not strict gives too. -/
  lenient : ∀ built, outcome true = .ok built → outcome false = .ok built

theorem ofSources_foldsInOrder (reader : PageReader) (options : DocumentOptions)
    (sources : List Source) (session : Session) :
    FoldsInOrder reader options sources fun strict =>
      ((ofSources reader options strict sources).runOn session).1 where
  aborted strict before source after cause hsources hbefore hcause := by
    rw [hsources]
    exact ofSources_of_aborts hbefore hcause
  complete strict hnone hnamed := by
    obtain ⟨trace, hlinked, -⟩ := (wellFormed_corpusOf reader options sources).exists_linked hnamed
    exact ⟨_, hlinked, ofSources_of_not_aborts hnone hnamed⟩
  unnamed strict hnone hunnamed := ofSources_of_unnamed hnone hunnamed
  named hroot hids := hasUnnamedInterface_corpusOf hroot hids
  counted := (total_reportOf reader options sources).symm
  signatures strict corpus report key hok hsome hfunctions := by
    obtain ⟨hnone, hnamed⟩ := not_aborts_of_ofSources hok
    rw [ofSources_of_not_aborts hnone hnamed] at hok
    obtain ⟨rfl, -⟩ := Prod.mk.inj (Except.ok.inj hok)
    rw [function?_withExtensions]
    exact function?_ofPairs hsome hfunctions
  lenient built hok := by
    obtain ⟨hnone, hnamed⟩ := not_aborts_of_ofSources hok
    -- what aborts the lenient build would have aborted the strict one, so both read everything
    have hlenient : ∀ source ∈ sources, ∀ cause, ¬ Aborts reader options false source cause :=
      fun source hsource cause hcause => hnone source hsource cause (aborts_strict hcause)
    rw [ofSources_of_not_aborts hnone hnamed] at hok
    rw [ofSources_of_not_aborts hlenient hnamed, hok]

/-- A build from a folder is one from the documents below it. -/
theorem runOn_build {folder : Path} (hfolder : session.storage.hasFolder folder = .ok true) :
    (build reader options strict folder).runOn session =
      (ofSources reader options strict (Corpus.sources session.storage folder)).runOn session := by
  have hget : (get : Action Session).runOn session = (.ok session, session) := rfl
  simp only [build, Action.runOn_bind, Action.runOn_ask, hfolder, if_true, hget]

/-- A build from a folder is a fold over the documents below it, in the order of their paths. -/
theorem build_foldsInOrder {folder : Path}
    (hfolder : session.storage.hasFolder folder = .ok true) :
    ((session.storage.filesBelow folder).Pairwise fun a b => Path.precedes a.1 b.1 = true) ∧
    FoldsInOrder reader options (Corpus.sources session.storage folder) fun strict =>
      ((build reader options strict folder).runOn session).1 := by
  refine ⟨session.storage.pairwise_filesBelow folder, ?_⟩
  simp only [runOn_build hfolder]
  exact ofSources_foldsInOrder reader options _ session

/-- A page with a help identifier. -/
def identifiedPage : String :=
  "<meta name=\"Microsoft.Help.Id\" content=\"T:Windows.A\">"

/-- A folder with such a page, and behind it a file that holds no text. -/
def pageAndNoText : Session where
  storage :=
    { items := [(["docs"], .folder), (["docs", "a.htm"], .file identifiedPage.toUTF8),
        (["docs", "b.htm"], .file ⟨#[255]⟩)] }

theorem build_foldsInOrder_pageAndNoText :
    pageAndNoText.storage.hasFolder ⟨0, ["docs"]⟩ = .ok true ∧
    FoldsInOrder Markup.readPage {} (Corpus.sources pageAndNoText.storage ⟨0, ["docs"]⟩)
      (fun strict => ((build Markup.readPage {} strict ⟨0, ["docs"]⟩).runOn pageAndNoText).1) ∧
    ((build Markup.readPage {} false ⟨0, ["docs"]⟩).runOn pageAndNoText).1 =
      .error (.build "b.htm" .notText) := by
  have hfolder : pageAndNoText.storage.hasFolder ⟨0, ["docs"]⟩ = .ok true := rfl
  have hlocate : pageAndNoText.storage.locate ⟨0, ["docs"]⟩ = .ok ["docs"] := rfl
  have hfiles : pageAndNoText.storage.filesBelow ⟨0, ["docs"]⟩ =
      [(["a.htm"], identifiedPage.toUTF8), (["b.htm"], ⟨#[255]⟩)] := by
    rw [Storage.filesBelow, hlocate]
    show List.mergeSort [(["a.htm"], identifiedPage.toUTF8), (["b.htm"], ⟨#[255]⟩)] _ = _
    exact List.mergeSort_of_pairwise (by simp [Path.precedes])
  have hsources : Corpus.sources pageAndNoText.storage ⟨0, ["docs"]⟩ =
      [("a.htm", identifiedPage.toUTF8)] ++ ("b.htm", ⟨#[255]⟩) :: [] := by
    rw [Corpus.sources, hfiles]
    rfl
  obtain ⟨-, hfolds⟩ := build_foldsInOrder hfolder
  refine ⟨hfolder, hfolds, hfolds.aborted false _ _ [] .notText hsources ?_ ⟨?_, .inr nofun⟩⟩
  · intro other hother cause hcause
    obtain rfl := List.mem_singleton.mp hother
    have hread : (readSource Markup.readPage {} ("a.htm", identifiedPage.toUTF8)).isOk = true := by
      decide +kernel
    rw [hcause.1] at hread
    cases hread
  · have hnone : textOfBytes? ⟨#[255]⟩ = none := by decide +kernel
    rw [readSource, hnone]

end Corpus

end ScriptTypings
