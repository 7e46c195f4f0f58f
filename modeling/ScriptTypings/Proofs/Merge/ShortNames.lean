import ScriptTypings.Proofs.Merge.Completion
import ScriptTypings.Proofs.TypeExpr

/-!
# Short names in type expressions

To qualify the text of a type expression is to rename it: each short name with a filled entry in the
table is replaced by the entry, at every depth, and nothing else changes (`qualify_print`). What the
table has for a name is dotted, or is the name itself in another case (`IsClosed`). So nothing is
replaced twice.
-/

namespace ScriptTypings

open Text TypeExpr

/-- A name without a dot is its own last segment. -/
theorem Identifier.lastSegment_of_not_mem {name : String} (h : '.' ∉ name.toList) :
    lastSegment name = name := by
  rw [lastSegment, afterLast_eq_self h, String.ofList_toList]

namespace ShortNames

variable {table : ShortNames}

/-! ### Replacing names -/

/-- The filled entry of a name without a dot. -/
def replacement? (table : ShortNames) (name : String) : Option String :=
  if '.' ∈ name.toList then none
  else
    match NameMap.find? (lowered name) table with
    | some (.text meaning) => if meaning = "" then none else some meaning
    | _ => none

/-- The filled entry of a name, or the name itself. -/
def replaced (table : ShortNames) (name : String) : String :=
  (table.replacement? name).getD name

theorem replacement?_eq_some_iff {name meaning : String} :
    table.replacement? name = some meaning ↔
      '.' ∉ name.toList ∧ NameMap.find? (lowered name) table = some (.text meaning) ∧
        meaning ≠ "" := by
  rw [replacement?]
  by_cases hdot : '.' ∈ name.toList
  · simp [hdot]
  · rw [if_neg hdot]
    cases hfind : NameMap.find? (lowered name) table with
    | none => simp
    | some value =>
      cases value with
      | text found =>
        have hfilled : found = meaning → (found ≠ "" ↔ meaning ≠ "") := fun hsame => hsame ▸ Iff.rfl
        simp [hdot]
        tauto
      | _ => simp

theorem replacement?_eq_some {name meaning : String}
    (h : table.replacement? name = some meaning) :
    NameMap.find? (lowered name) table = some (.text meaning) :=
  (replacement?_eq_some_iff.mp h).2.1

theorem replacement?_of_find? {name meaning : String} (hdot : '.' ∉ name.toList)
    (hmeaning : meaning ≠ "") (hfind : NameMap.find? (lowered name) table = some (.text meaning)) :
    table.replacement? name = some meaning :=
  replacement?_eq_some_iff.mpr ⟨hdot, hfind, hmeaning⟩

theorem replacement?_of_dot {name : String} (hdot : '.' ∈ name.toList) :
    table.replacement? name = none :=
  if_pos hdot

/-- Where all entries are texts, a name stands for what it is replaced by. -/
theorem IsTextual.expandInside_eq (h : table.IsTextual) (name : String) :
    table.expandInside name = table.replaced name := by
  rw [expandInside, expand, replaced, replacement?]
  by_cases hdot : '.' ∈ name.toList
  · rw [if_pos (List.contains_iff_mem.mpr hdot), if_pos hdot]
    rfl
  · rw [if_neg (fun hcontains => hdot (List.contains_iff_mem.mp hcontains)), if_neg hdot]
    cases hfind : NameMap.find? (lowered name) table with
    | none => rfl
    | some meaning =>
      dsimp only
      rcases h _ _ hfind with htext | hempty
      · obtain ⟨s, rfl⟩ := Json.exists_of_isText htext
        by_cases hs : s = ""
        · simp [Json.isEmpty, Json.shown, hs]
        · simp [Json.isEmpty, Json.shown, hs]
      · rw [if_pos hempty]
        cases meaning with
        | text s =>
          rw [Json.isEmpty, decide_eq_true_eq] at hempty
          rw [hempty]
          rfl
        | _ => rfl

theorem IsTextual.qualify_eq (h : table.IsTextual) (s : String) :
    table.qualify s = .text ((read s).rename table.replaced).print := by
  have hnames : table.expandInside = table.replaced := funext h.expandInside_eq
  rw [qualify, qualifyExpr, h.oddMeaning?_eq_none, hnames]

theorem IsTextual.qualify_text (h : table.IsTextual) {type : TypeExpr}
    (htype : type.AllNames IsName) :
    table.qualify type.print = .text (type.rename table.replaced).print := by
  rw [h.qualify_eq, read_print htype]

/-! ### Replacing once -/

/-- The entry of a key is a name, which is dotted or has the key as its lower-case form. -/
def IsClosed (table : ShortNames) : Prop :=
  ∀ key meaning, NameMap.find? key table = some (.text meaning) →
    IsName meaning ∧ ('.' ∈ meaning.toList ∨ lowered meaning = key)

theorem IsClosed.put (h : table.IsClosed) {key : String} {value : Json}
    (hvalue : ∀ meaning, value = .text meaning →
      IsName meaning ∧ ('.' ∈ meaning.toList ∨ lowered meaning = key)) :
    IsClosed (NameMap.put key value table) := by
  intro other meaning hfind
  by_cases hsame : other = key
  · subst hsame
    rw [NameMap.find?_put_self] at hfind
    exact hvalue meaning (Option.some.inj hfind)
  · rw [NameMap.find?_put_of_ne hsame] at hfind
    exact h other meaning hfind

theorem IsClosed.addIdentifier (h : table.IsClosed) {identifier : String}
    (hname : IsName identifier) : (addIdentifier table identifier).IsClosed := by
  have hentry : ∀ meaning, Json.text identifier = .text meaning → IsName meaning ∧
      ('.' ∈ meaning.toList ∨
        lowered meaning = lowered (Identifier.lastSegment identifier)) := by
    intro meaning hmeaning
    obtain rfl := Json.text.inj hmeaning
    refine ⟨hname, ?_⟩
    by_cases hdot : '.' ∈ identifier.toList
    · exact .inl hdot
    · exact .inr (by rw [Identifier.lastSegment_of_not_mem hdot])
  simp only [ShortNames.addIdentifier]
  split
  · exact h.put hentry
  · split
    · exact h
    · refine h.put fun meaning hmeaning => ?_
      cases hmeaning
  · exact h

theorem IsClosed.addAll (h : table.IsClosed) {entries : List Entry}
    (hnames : ∀ e ∈ entries, IsName e.identifier.asText) :
    IsClosed (entries.foldl (fun t e => ShortNames.addIdentifier t e.identifier.asText)
      table) := by
  induction entries generalizing table with
  | nil => exact h
  | cons entry entries ih =>
    rw [List.forall_mem_cons] at hnames
    exact ih (h.addIdentifier hnames.1) hnames.2

/-- A name with a dot, as the value of an override. -/
def IsDotted (value : Json) : Prop :=
  ∃ name, value = .text name ∧ IsName name ∧ '.' ∈ name.toList

theorem IsClosed.update (h : table.IsClosed) {pairs : List (String × Json)}
    (hpairs : ∀ p ∈ pairs, IsDotted p.2) : IsClosed (NameMap.update table pairs) := by
  induction pairs generalizing table with
  | nil => exact h
  | cons pair pairs ih =>
    rw [List.forall_mem_cons] at hpairs
    obtain ⟨name, hvalue, hname, hdot⟩ := hpairs.1
    refine ih (h.put fun meaning hmeaning => ?_) hpairs.2
    rw [hvalue] at hmeaning
    obtain rfl := Json.text.inj hmeaning
    exact ⟨hname, .inl hdot⟩

/-- The table of a corpus, if its identifiers are names and the overrides are dotted ones. -/
theorem isClosed_ofCorpus {corpus : Corpus} {overrides : List (String × Json)}
    (hentries : ∀ e ∈ corpus.entries, IsName e.2.identifier.asText)
    (hoverrides : ∀ o ∈ overrides, IsDotted o.2) : (ofCorpus corpus overrides).IsClosed := by
  have hempty : IsClosed [] := nofun
  refine (hempty.addAll fun e he => ?_).update fun p hp => ?_
  · obtain ⟨item, hitem, rfl⟩ := List.mem_map.mp (List.mem_of_mem_filter he)
    exact hentries item ((NameMap.sorted_perm corpus.entries).mem_iff.mp hitem)
  · obtain ⟨o, ho, rfl⟩ := List.mem_map.mp hp
    exact hoverrides o ho

theorem IsClosed.isName_replaced (h : table.IsClosed) {name : String} (hname : IsName name) :
    IsName (table.replaced name) := by
  rw [replaced]
  cases hmeaning : table.replacement? name with
  | none => exact hname
  | some meaning => exact (h _ _ (replacement?_eq_some hmeaning)).1

/-- What replaces a name is not replaced by another one. -/
theorem IsClosed.replaced_replaced (h : table.IsClosed) (name : String) :
    table.replaced (table.replaced name) = table.replaced name := by
  cases hmeaning : table.replacement? name with
  | none =>
    have hkept : table.replaced name = name := by rw [replaced, hmeaning, Option.getD_none]
    rw [hkept, hkept]
  | some meaning =>
    have hfind := replacement?_eq_some hmeaning
    obtain ⟨hname, hsettled⟩ := h _ _ hfind
    have hreplaced : table.replaced name = meaning := by rw [replaced, hmeaning, Option.getD_some]
    rw [hreplaced]
    by_cases hdot : '.' ∈ meaning.toList
    · rw [replaced, replacement?_of_dot hdot, Option.getD_none]
    · have hne : meaning ≠ "" := by
        rintro rfl
        exact hname.ne_nil rfl
      rw [← hsettled.resolve_left hdot] at hfind
      rw [replaced, replacement?_of_find? hdot hne hfind, Option.getD_some]

end ShortNames

namespace Reference

open ShortNames

/-- Qualifying the text of a type expression comes to its end and writes the expression with every
short name replaced by the filled entry that the table has for it. Doing so again changes nothing,
if the identifiers are names and the overrides are dotted. -/
theorem qualify_print (corpus : Corpus) {overrides : List (String × Json)}
    (hoverrides : ∀ o ∈ overrides, o.2.isText = true ∨ o.2.isEmpty = true) {type : TypeExpr}
    (htype : type.AllNames IsName) :
    let r := Reference.ofCorpus corpus overrides
    Trace.misfit? (r.shortNames.qualifying type.print : MergeTrace) = none ∧
    r.qualify type.print = .text (type.rename r.shortNames.replaced).print ∧
    ((∀ e ∈ corpus.entries, IsName e.2.identifier.asText) →
      (∀ o ∈ overrides, IsDotted o.2) →
        r.qualify (r.qualify type.print) = r.qualify type.print) := by
  intro r
  have htextual : r.shortNames.IsTextual := isTextual_ofCorpus_of_isEmpty corpus hoverrides
  have hqualify : ∀ {type : TypeExpr}, type.AllNames IsName →
      r.qualify type.print = .text (type.rename r.shortNames.replaced).print :=
    fun htype => htextual.qualify_text htype
  refine ⟨?_, hqualify htype, fun hentries hdotted => ?_⟩
  · rw [qualifying, htextual.combinesOdd_eq_false]
    rfl
  · have hclosed : r.shortNames.IsClosed := isClosed_ofCorpus hentries hdotted
    have hrenamed : (type.rename r.shortNames.replaced).AllNames fun name =>
        IsName name ∧ r.shortNames.replaced name = name :=
      allNames_rename (fun name hname =>
        ⟨hclosed.isName_replaced hname, hclosed.replaced_replaced name⟩) htype
    rw [hqualify htype, hqualify (hrenamed.mono fun _ _ h => h.1),
      rename_eq_self (fun _ h => h.2) hrenamed]

/-- A type of a page, with an array in the arguments of another type. -/
def pageType : TypeExpr :=
  .named "IMap" [.named "String" [], .array (.named "Uri" [.named "N.Uri" []])]

/-- One class, of which the short name is that of a type of a page. -/
def uriCorpus : Corpus where
  entries := [("windows.foundation.uri", ⟨"Windows.Foundation.Uri", "", .cls [] false⟩)]

def mapOverride : List (String × Json) :=
  [("IMap", "N.IMap")]

/-- Short names are replaced in front of arguments and below an array. -/
theorem qualify_print_pageType :
    (∀ o ∈ mapOverride, o.2.isText = true ∨ o.2.isEmpty = true) ∧ pageType.AllNames IsName ∧
    let r := Reference.ofCorpus uriCorpus mapOverride
    let written : Json := "N.IMap<String, array of Windows.Foundation.Uri<N.Uri>>"
    r.qualify pageType.print = written ∧ r.qualify written = written := by
  have hoverrides : ∀ o ∈ mapOverride, o.2.isText = true ∨ o.2.isEmpty = true := by decide
  have htype : pageType.AllNames IsName := by
    refine ⟨?_, ⟨?_, trivial⟩, ⟨?_, ⟨?_, trivial⟩, trivial⟩, trivial⟩ <;> decide +kernel
  have hentries : ∀ e ∈ uriCorpus.entries, IsName e.2.identifier.asText := by decide +kernel
  have hdotted : ∀ o ∈ mapOverride, IsDotted o.2 := by
    rw [mapOverride, List.forall_mem_singleton]
    exact ⟨"N.IMap", rfl, by decide +kernel, by decide +kernel⟩
  obtain ⟨-, hqualify, hagain⟩ := Reference.qualify_print uriCorpus hoverrides htype
  have hwritten : (Reference.ofCorpus uriCorpus mapOverride).qualify pageType.print =
      "N.IMap<String, array of Windows.Foundation.Uri<N.Uri>>" := by
    rw [hqualify]
    decide +kernel
  exact ⟨hoverrides, htype, hwritten, hwritten ▸ hagain hentries hdotted⟩

/-- An override that says nothing. -/
def blankOverride : List (String × Json) :=
  [("foo", "")]

/-- A short name whose entry is there but empty is kept. -/
theorem qualify_blankOverride :
    let r := Reference.ofCorpus {} blankOverride
    (TypeExpr.named "Foo" []).AllNames IsName ∧
    NameMap.find? (lowered "Foo") r.shortNames = some (.text "") ∧
    r.qualify (TypeExpr.named "Foo" []).print = .text "Foo" ∧ Json.text "Foo" ≠ .text "" := by
  refine ⟨⟨by decide +kernel, trivial⟩, by decide +kernel, by decide +kernel, by decide⟩

end Reference

end ScriptTypings
