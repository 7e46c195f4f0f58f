import ScriptTypings.Markup.Reader
import ScriptTypings.Proofs.Corpus.Outcome
import ScriptTypings.Proofs.Page.Canonical
import ScriptTypings.Proofs.Storage.Written

/-!
# Corpora with canonical keys

The entries of a corpus keep the identifiers that they were added with, and a function that several
pages document keeps the first one. So if canonical entries are added then the corpus has canonical
entries only, however the pages spell an identifier: `isCanonical_of_build` says so of every folder
of documents with ASCII names.
-/

namespace ScriptTypings.Corpus

open Text Page

/-- The help identifier of a document, and the names of the members if it is about an enumeration,
are ASCII. -/
def HasAsciiNames (reader : PageReader) (source : Source) : Prop :=
  ∀ text, textOfBytes? source.2 = some text →
    (∀ rawId, Document.helpId? (reader text) = some rawId → IsAscii rawId.toList) ∧
      ∀ name ∈ Document.memberNames (reader text), IsAscii name.toList

variable {reader : PageReader} {options : DocumentOptions} {corpus : Corpus}

theorem canonical_entriesOf (hroot : options.root = "windows") {source : Source}
    (h : HasAsciiNames reader source) : (entriesOf reader options source).Canonical := by
  unfold entriesOf readSource
  cases htext : textOfBytes? source.2 with
  | none => exact nofun
  | some text =>
    obtain ⟨hid, hnames⟩ := h text htext
    have hparse := Document.gives_parse_canonical hroot hid hnames
    dsimp only
    cases hdocument : Document.parse reader options text with
    | error e => exact nofun
    | ok document =>
      obtain ⟨title, kind?, outcome⟩ := document
      cases outcome with
      | entries found => exact hparse _ hdocument found rfl
      | skipped reason => exact nofun

/-- The identifier of a function is the one that it was first added with. -/
theorem isCanonical_combine {before : Option Entry} {key : String} {entry : Entry}
    (hbefore : ∀ e, before = some e → IsCanonical (key, e)) (h : IsCanonical (key, entry)) :
    IsCanonical (key, combine before entry) := by
  unfold combine
  split
  · have hold := hbefore _ rfl
    exact ⟨hold.isText, hold.key, hold.lead⟩
  · exact h

theorem canonical_add (hcorpus : Entries.Canonical corpus.entries) {e : String × Entry}
    (h : IsCanonical e) : Entries.Canonical (corpus.add e.1 e.2).entries := by
  have hkey : lowered e.1 = e.1 := by
    rw [h.key]
    exact lowered_lowered _
  intro e' he'
  rw [add, hkey] at he'
  rcases NameMap.mem_put he' with rfl | hold
  · refine isCanonical_combine (fun old hfound => ?_) h
    exact hcorpus _ (NameMap.mem_of_find?_eq_some hfound)
  · exact hcorpus e' hold

theorem canonical_addAll {pairs : Entries} (hcorpus : Entries.Canonical corpus.entries)
    (hpairs : pairs.Canonical) : Entries.Canonical (corpus.addAll pairs).entries := by
  induction pairs generalizing corpus with
  | nil => exact hcorpus
  | cons pair pairs ih =>
    have hfirst := canonical_add hcorpus (hpairs pair List.mem_cons_self)
    exact ih hfirst fun p hp => hpairs p (List.mem_cons_of_mem _ hp)

/-- To record extensions changes neither keys nor identifiers. -/
theorem canonical_withExtensions (h : Entries.Canonical corpus.entries) :
    Entries.Canonical corpus.withExtensions.entries := by
  intro e he
  obtain ⟨⟨key, entry⟩, hmem, rfl⟩ := List.mem_map.mp he
  have hplain := h _ hmem
  obtain ⟨identifier, description, content⟩ := entry
  cases content with
  | interface listing =>
    obtain ⟨extensions, hlinked⟩ :=
      corpus.exists_linkEntry_interface key identifier description listing
    dsimp only
    rw [hlinked]
    exact ⟨hplain.isText, hplain.key, hplain.lead⟩
  | _ => exact hplain

/-- A build that gives a corpus has found the folder, and no document has aborted it. -/
theorem of_build {strict : Bool} {folder : Path} {session after : Session} {report : BuildReport}
    (h : (build reader options strict folder).runOn session = (.ok (corpus, report), after)) :
    (∀ source ∈ sources session.storage folder, ∀ cause,
      ¬ Aborts reader options strict source cause) ∧
      corpus = (corpusOf reader options (sources session.storage folder)).withExtensions := by
  have hfolder : session.storage.hasFolder folder = .ok true := by
    rw [build, Action.runOn_bind, Action.runOn_ask] at h
    cases hfound : session.storage.hasFolder folder with
    | error e =>
      rw [hfound] at h
      cases h
    | ok found =>
      rw [hfound] at h
      cases found with
      | true => rfl
      | false => cases h
  have hok := congrArg Prod.fst h
  rw [runOn_build hfolder] at hok
  obtain ⟨hnone, hnamed⟩ := not_aborts_of_ofSources hok
  rw [ofSources_of_not_aborts hnone hnamed] at hok
  obtain ⟨hcorpus, -⟩ := Prod.mk.inj (Except.ok.inj hok)
  exact ⟨hnone, hcorpus.symm⟩

/-- Every corpus that is built below the usual root has its entries under the lower-case forms of
their identifiers, which begin with the name of the root, if the documents have ASCII names. -/
theorem isCanonical_of_build {strict : Bool} {folder : Path} {session after : Session}
    {report : BuildReport} (hroot : options.root = "windows")
    (hascii : ∀ source ∈ sources session.storage folder, HasAsciiNames reader source)
    (hbuild : (build reader options strict folder).runOn session = (.ok (corpus, report), after)) :
    ∀ e ∈ corpus.entries, e.2.identifier.isText = true ∧ e.1 = lowered e.2.identifier.asText ∧
      hasLead "windows" e.1 = true := by
  obtain ⟨-, rfl⟩ := of_build hbuild
  have hentries :
      Entries.Canonical (corpusOf reader options (sources session.storage folder)).entries := by
    refine canonical_addAll nofun fun e he => ?_
    obtain ⟨source, hsource, he⟩ := List.mem_flatMap.mp he
    exact canonical_entriesOf hroot (hascii source hsource) e he
  intro e he
  have hcanonical := canonical_withExtensions hentries e he
  exact ⟨hcanonical.isText, hcanonical.key, hcanonical.lead⟩

/-- A folder that holds one page. -/
def pageFolder (text : String) : Session where
  storage := { items := [(["docs"], .folder), (["docs", "page.htm"], .file text.toUTF8)] }

theorem sources_pageFolder (text : String) :
    sources (pageFolder text).storage ⟨0, ["docs"]⟩ = [("page.htm", text.toUTF8)] := by
  have hlocate : (pageFolder text).storage.locate ⟨0, ["docs"]⟩ = .ok ["docs"] := rfl
  rw [sources, Storage.filesBelow, hlocate]
  show ((List.mergeSort [(["page.htm"], text.toUTF8)] _).filter _).map _ = _
  rw [List.mergeSort_singleton]
  rfl

/-- The keys of the entries that a page gives. -/
def keysOf? : Except PageError Document → Option (List String)
  | .ok ⟨_, _, .entries found⟩ => some (found.map Prod.fst)
  | _ => none

/-- The entries of the only page make up the corpus that is built. -/
theorem build_of_page {folder : Path} {session : Session} {text title : String}
    {kind : Option PageKind} {found : Page.Entries}
    (hfolder : session.storage.hasFolder folder = .ok true)
    (hsources : sources session.storage folder = [("page.htm", text.toUTF8)])
    (htext : '\r' ∉ text.toList)
    (hparse : Document.parse reader options text = .ok ⟨title, kind, .entries found⟩)
    (hlowered : ∀ e ∈ found, lowered e.1 = e.1) (hnodup : (found.map Prod.fst).Nodup)
    (hempty : ∀ e ∈ found, e.1 ≠ "") (strict : Bool) :
    ((build reader options strict folder).runOn session).1 =
      .ok ((⟨found⟩ : Corpus).withExtensions,
        reportOf reader options [("page.htm", text.toUTF8)]) := by
  have hread : readSource reader options ("page.htm", text.toUTF8) =
      .ok ⟨title, kind, .entries found⟩ := by
    simp only [readSource, textOfBytes?_toUTF8 htext, hparse]
  have hnone : ∀ source ∈ sources session.storage folder, ∀ cause,
      ¬ Aborts reader options strict source cause := by
    rw [hsources]
    intro source hsource cause hcause
    rw [Aborts, List.mem_singleton.mp hsource, hread] at hcause
    cases hcause.1
  have hcorpus : corpusOf reader options (sources session.storage folder) = ⟨found⟩ := by
    rw [hsources, corpusOf, List.flatMap_singleton, entriesOf, hread]
    exact ofPairs_of_nodup hlowered hnodup
  have hnamed : (corpusOf reader options (sources session.storage folder)).hasUnnamedInterface =
      false := by
    rw [hcorpus]
    exact hasUnnamedInterface_eq_false fun e he => hempty e he
  rw [runOn_build hfolder, ofSources_of_not_aborts hnone hnamed, hcorpus, hsources]

/-- A folder with one page gives a corpus with the keys of this page. -/
theorem exists_build_pageFolder {text : String} (htext : '\r' ∉ text.toList) {keys : List String}
    (hkeys : keysOf? (Document.parse reader options text) = some keys)
    (hlowered : ∀ key ∈ keys, lowered key = key) (hnodup : keys.Nodup) (hempty : "" ∉ keys)
    (strict : Bool) : ∃ corpus report after,
      (build reader options strict ⟨0, ["docs"]⟩).runOn (pageFolder text) =
        (.ok (corpus, report), after) ∧ corpus.entries.map Prod.fst = keys := by
  obtain ⟨title, kind, found, hparse, rfl⟩ : ∃ title kind found,
      Document.parse reader options text = .ok ⟨title, kind, .entries found⟩ ∧
        found.map Prod.fst = keys := by
    unfold keysOf? at hkeys
    split at hkeys
    · rename_i title kind found hparse
      exact ⟨title, kind, found, hparse, Option.some.inj hkeys⟩
    · cases hkeys
  have hfolder : (pageFolder text).storage.hasFolder ⟨0, ["docs"]⟩ = .ok true := rfl
  have hbuilt := build_of_page hfolder (sources_pageFolder text) htext hparse
    (fun e he => hlowered e.1 (List.mem_map_of_mem he)) hnodup
    (fun e he hname => hempty (hname ▸ List.mem_map_of_mem he)) strict
  refine ⟨_, _, _, Prod.ext hbuilt rfl, ?_⟩
  rw [withExtensions, List.map_map]
  rfl

/-- A page of an enumeration with one member. -/
def kindPage : String :=
  "<meta name=Microsoft.Help.Id content=T:Windows.Kind>" ++
  "<meta name=Microsoft.Help.Category content=DevLang:JavaScript>" ++
  "<div class=title>Kind enumeration</div><div id=mainSection><h2>Members</h2>" ++
  "<table><tr><tr><td><b>First</b><b>first"

theorem kindPage_facts :
    (decide ('\r' ∉ kindPage.toList) &&
      ((Document.helpId? (Markup.readPage kindPage)).all fun rawId => IsAscii rawId.toList) &&
      ((Document.memberNames (Markup.readPage kindPage)).all fun name => IsAscii name.toList) &&
      (keysOf? (Document.parse Markup.readPage {} kindPage) =
        some ["windows.kind", "windows.kind.first"])) = true := by
  have hchars : kindPage.toList = _ :=
    toList_append_of (toList_append_of (toList_append_of String.toList_ofList String.toList_ofList)
      String.toList_ofList) String.toList_ofList
  simp only [Document.parse, Markup.readPage, Markup.readNodes, Markup.Token.scan, hchars]
  decide +kernel

/-- The page of an enumeration gives the key of the enumeration and that of its member. -/
theorem isCanonical_of_build_kindPage :
    (∀ source ∈ sources (pageFolder kindPage).storage ⟨0, ["docs"]⟩,
      HasAsciiNames Markup.readPage source) ∧
    ∃ corpus report after,
      (build Markup.readPage {} true ⟨0, ["docs"]⟩).runOn (pageFolder kindPage) =
        (.ok (corpus, report), after) ∧
      corpus.entries.map Prod.fst = ["windows.kind", "windows.kind.first"] ∧
      ∀ e ∈ corpus.entries, e.2.identifier.isText = true ∧
        e.1 = lowered e.2.identifier.asText ∧ hasLead "windows" e.1 = true := by
  have hfacts := kindPage_facts
  generalize kindPage = text at hfacts ⊢
  simp only [Bool.and_eq_true, decide_eq_true_eq, Option.all_eq_true, List.all_eq_true] at hfacts
  obtain ⟨⟨⟨htext, hid⟩, hnames⟩, hkeys⟩ := hfacts
  have hascii : ∀ source ∈ sources (pageFolder text).storage ⟨0, ["docs"]⟩,
      HasAsciiNames Markup.readPage source := by
    rw [sources_pageFolder]
    intro source hsource read hread
    rw [List.mem_singleton.mp hsource, textOfBytes?_toUTF8 htext] at hread
    obtain rfl := Option.some.inj hread
    exact ⟨fun rawId hrawId => hid rawId hrawId, hnames⟩
  obtain ⟨corpus, report, after, hbuild, hcorpus⟩ :=
    exists_build_pageFolder htext hkeys (by decide +kernel) (by decide) (by decide) true
  refine ⟨hascii, corpus, report, after, hbuild, hcorpus, ?_⟩
  exact isCanonical_of_build rfl hascii hbuild

end ScriptTypings.Corpus
