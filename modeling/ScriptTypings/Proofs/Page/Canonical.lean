import ScriptTypings.Proofs.Page.Keys
import ScriptTypings.Proofs.Text.Ascii

/-!
# Canonical keys

Every kind of page computes the keys of its entries beside their identifiers, some from the rewritten
identifier and some by rewriting the key. Below the usual root, with ASCII identifiers and member
names, both ways come to the same: every entry stands under the lower-case form of its identifier,
which begins with the name of the root (`Document.gives_parse_canonical`).
-/

namespace ScriptTypings

open Text

/-! ### Identifiers below the root -/

/-- An identifier of ASCII characters that begins with the name of the usual root, up to case. -/
structure Identifier.IsRooted (identifier : String) : Prop where
  ascii : IsAscii identifier.toList
  lead : "windows".toList <+: lower identifier.toList

/-- What stands in front of a dot in an identifier begins with the name of the root, and still does
with something else in the place of what follows. -/
theorem Identifier.IsRooted.replace {identifier : String} (h : IsRooted identifier)
    {before after tail : List Char} (hid : identifier.toList = before ++ after)
    (hdot : ∃ rest, lower after = '.' :: rest) (htail : IsAscii tail) :
    IsRooted (.ofList (before ++ tail)) := by
  obtain ⟨rest, hdot⟩ := hdot
  have hparts : IsAscii (before ++ after) := hid ▸ h.ascii
  have hlower : lower identifier.toList = lower before ++ '.' :: rest := by
    rw [hid, lower_append_of_isAscii hparts.left hparts.right, hdot]
  have hlead : "windows".toList <+: lower before :=
    isPrefix_of_isPrefix_append_cons (by decide) (hlower ▸ h.lead)
  have hchars : (String.ofList (before ++ tail)).toList = before ++ tail := String.toList_ofList
  refine ⟨?_, ?_⟩
  · rw [hchars]
    exact hparts.left.append htail
  · rw [hchars, lower_append_of_isAscii hparts.left htail]
    exact hlead.trans (List.prefix_append _ _)

theorem Identifier.IsRooted.member {identifier name : String} (h : IsRooted identifier)
    (hname : IsAscii name.toList) :
    IsRooted (Identifier.member identifier name) ∧
      lowered (Identifier.member identifier name) =
        lowered identifier ++ "." ++ lowered name := by
  have hdot : IsAscii ".".toList := by decide
  have hchars : (Identifier.member identifier name).toList =
      identifier.toList ++ (".".toList ++ name.toList) := by
    rw [Identifier.member, String.toList_append, String.toList_append, List.append_assoc]
  have hlower : lower (Identifier.member identifier name).toList =
      lower identifier.toList ++ (".".toList ++ lower name.toList) := by
    rw [hchars, lower_append_of_isAscii h.ascii (hdot.append hname),
      lower_append_of_isAscii hdot hname]
    rfl
  refine ⟨⟨?_, ?_⟩, ?_⟩
  · rw [hchars]
    exact h.ascii.append (hdot.append hname)
  · rw [hlower]
    exact h.lead.trans (List.prefix_append _ _)
  · apply String.toList_injective
    simp only [lowered, hlower, String.toList_append, String.toList_ofList, List.append_assoc]

/-- What a help identifier of ASCII characters names lies below the root. -/
theorem Document.isRooted_identifier? {rawId identifier : String} (hascii : IsAscii rawId.toList)
    (h : identifier? "windows" rawId = some identifier) : Identifier.IsRooted identifier := by
  obtain ⟨⟨before, after⟩, hsplit, rfl⟩ := Option.map_eq_some_iff.mp h
  have hroot : lower "windows".toList = "windows".toList := by decide +kernel
  have hlower : lower rawId.toList = (before ++ [':']) ++ ("windows".toList ++ after) := by
    rw [eq_append_of_splitAt? hsplit, hroot]
    simp
  show Identifier.IsRooted (Identifier.canonical (.ofList (rawId.toList.drop (before.length + 1))))
  have hbehind : lower (rawId.toList.drop (before.length + 1)) = "windows".toList ++ after := by
    have hcut := (exists_of_lower_eq_append hascii hlower).2
    rwa [List.length_append] at hcut
  have hname : IsAscii (rawId.toList.drop (before.length + 1)) := fun c hc =>
    hascii c (List.mem_of_mem_drop hc)
  generalize rawId.toList.drop (before.length + 1) = behind at hbehind hname
  obtain ⟨hfirst, -⟩ := exists_of_lower_eq_append hname hbehind
  -- no decoration looks like a letter of the name of the root
  have hplain : Identifier.IsPlain (behind.take "windows".toList.length) := by
    have hpart : IsAscii (behind.take "windows".toList.length) := fun c hc =>
      hname c (List.mem_of_mem_take hc)
    intro c hc
    have hmem : lowerChar c ∈ "windows".toList := by
      rw [← hfirst, lower_of_isAscii hpart]
      exact List.mem_map_of_mem hc
    exact of_toNat_lt (P := fun c => lowerChar c ∈ "windows".toList →
      c ≠ '(' ∧ c ≠ Identifier.tick ∧ isBlank c = false) (by decide +kernel) (hpart c hc) hmem
  have hne : behind.take "windows".toList.length ≠ [] := by
    intro hnil
    rw [hnil] at hfirst
    exact absurd hfirst (by decide)
  obtain ⟨kept, hkept⟩ := Identifier.exists_canonicalChars_append hplain hne
    (behind.drop "windows".toList.length)
  rw [List.take_append_drop] at hkept
  have hchars : (Identifier.canonical (.ofList behind)).toList =
      behind.take "windows".toList.length ++ kept := by
    rw [← hkept, Identifier.canonical, String.toList_ofList, String.toList_ofList]
  have hcanonical := Identifier.isAscii_canonicalChars hname
  rw [hkept] at hcanonical
  refine ⟨?_, ?_⟩
  · rw [hchars]
    exact hcanonical
  · rw [hchars, lower_append_of_isAscii hcanonical.left hcanonical.right, hfirst]
    exact List.prefix_append _ _

/-! ### Entries -/

namespace Page

open Markup

/-- The entry stands under the lower-case form of its identifier, which begins with the name of the
usual root. -/
structure IsCanonical (e : String × Entry) : Prop where
  isText : e.2.identifier.isText = true
  key : e.1 = lowered e.2.identifier.asText
  lead : hasLead "windows" e.1 = true

theorem isCanonical_of_isRooted {identifier : String} (h : Identifier.IsRooted identifier)
    (description : Json) (content : Content) :
    IsCanonical (lowered identifier, ⟨.text identifier, description, content⟩) := by
  refine ⟨rfl, rfl, ?_⟩
  have hchars : (lowered identifier).toList = lower identifier.toList := String.toList_ofList
  rw [hasLead, List.isPrefixOf_iff_prefix, hchars]
  exact h.lead

/-- Every entry of a page is canonical. -/
def Entries.Canonical (entries : Entries) : Prop :=
  ∀ e ∈ entries, IsCanonical e

/-- The script names in the member table of an enumeration. -/
def scriptNames (sections : Markup.Section) : List String :=
  match (sections.subsection? "Members").bind firstTable? with
  | none => []
  | some table =>
    (dataRows table).filterMap fun row =>
      match row.head?.map emphasised with
      | some (_ :: scriptName :: _) => some (trimmed scriptName.innerText)
      | _ => none

variable {page : Page}

theorem canonical_single {identifier : String} (h : Identifier.IsRooted identifier)
    (description : Json) (content : Content) :
    Entries.Canonical [(lowered identifier, ⟨.text identifier, description, content⟩)] := by
  intro e he
  rw [List.mem_singleton.mp he]
  exact isCanonical_of_isRooted h description content

theorem canonical_enumerationMember (h : Identifier.IsRooted page.identifier) {table : Node}
    (htable : (page.sections.subsection? "Members").bind firstTable? = some table)
    (hnames : ∀ name ∈ scriptNames page.sections, IsAscii name.toList) {row : List Node}
    (hrow : row ∈ dataRows table) {e : String × Entry} (he : page.enumerationMember row = some e) :
    IsCanonical e := by
  unfold enumerationMember at he
  split at he
  · rename_i word scriptName others hwords
    have hname : IsAscii (trimmed scriptName.innerText).toList := by
      refine hnames _ ?_
      rw [scriptNames, htable]
      refine List.mem_filterMap.mpr ⟨row, hrow, ?_⟩
      rw [hwords]
    obtain ⟨hrooted, hkey⟩ := h.member hname
    rw [← Option.some.inj he, key, ← hkey]
    exact isCanonical_of_isRooted hrooted _ _
  · cases he

theorem gives_constructorIdentifier_isRooted {identifier : String}
    (h : Identifier.IsRooted identifier) :
    Gives (constructorIdentifier identifier) Identifier.IsRooted := by
  unfold constructorIdentifier
  split
  · rename_i owner after hsplit
    refine .ok ?_
    have hlower : lower identifier.toList = owner ++ (".#ctor".toList ++ after) := by
      rw [eq_append_of_splitAt? hsplit, List.append_assoc]
    obtain ⟨-, hbehind⟩ := exists_of_lower_eq_append h.ascii hlower
    have hmember : Identifier.member (.ofList (identifier.toList.take owner.length)) "constructor" =
        .ofList (identifier.toList.take owner.length ++ ".constructor".toList) := by
      apply String.toList_injective
      simp [Identifier.member, String.toList_append]
    rw [hmember]
    exact h.replace (List.take_append_drop _ _).symm ⟨_, hbehind⟩ (by decide)
  · exact .error _ _

theorem gives_handlerIdentifier_isRooted {identifier : String}
    (h : Identifier.IsRooted identifier) :
    Gives (handlerIdentifier identifier) Identifier.IsRooted := by
  unfold handlerIdentifier Identifier.mapLast?
  dsimp only
  by_cases hlast : (afterLast '.' identifier.toList).length = identifier.toList.length
  · rw [if_pos hlast]
    exact .error _ _
  · rw [if_neg hlast]
    obtain ⟨before, hid⟩ := exists_eq_append_afterLast hlast
    generalize afterLast '.' identifier.toList = last at hid
    have hcut : identifier.toList.take (identifier.toList.length - last.length) =
        before ++ ['.'] := by
      have hsplit : identifier.toList = (before ++ ['.']) ++ last := by
        rw [hid]
        simp
      have hlength : identifier.toList.length - last.length = (before ++ ['.']).length := by
        rw [hsplit, List.length_append]
        omega
      rw [hlength, hsplit]
      exact List.take_left
    have hlower : lower ('.' :: last) = '.' :: lowerFrom ['.'] last := by
      rw [lower, lowerFrom, if_neg (by decide), if_neg (by decide)]
      rfl
    have htail : IsAscii (".on".toList ++ last) := by
      have hparts : IsAscii (before ++ '.' :: last) := hid ▸ h.ascii
      have hdot : IsAscii (['.'] ++ last) := hparts.right
      exact IsAscii.append (by decide) hdot.right
    refine .ok ?_
    rw [hcut, List.append_assoc]
    exact h.replace hid ⟨_, hlower⟩ htail

/-- The entries of a page below the root are canonical, whatever its kind, if the script names of an
enumeration's members are ASCII. -/
theorem gives_canonical (h : Identifier.IsRooted page.identifier) (kind : PageKind)
    (hnames : kind = .enumeration → ∀ name ∈ scriptNames page.sections, IsAscii name.toList) :
    Gives (page.entries kind) Entries.Canonical := by
  have hown : ∀ description content, (page.own description content).Canonical :=
    fun description content => canonical_single h (.text description) content
  cases kind with
  | cls => exact (Gives.anything _).bind fun _ _ => .ok (hown _ _)
  | attributeType => exact (Gives.anything _).bind fun _ _ => .ok (hown _ _)
  | enumeration =>
    show Gives (page.enumerationEntries _) _
    unfold enumerationEntries
    split
    · exact .error _ _
    · rename_i table htable
      refine .ok fun e he => ?_
      rcases List.mem_append.mp he with he | he
      · exact hown _ _ e he
      · obtain ⟨row, hrow, hmember⟩ := List.mem_filterMap.mp he
        exact canonical_enumerationMember h htable (hnames rfl) hrow hmember
  | space => exact (Gives.anything _).bind fun _ _ => .ok (hown _ _)
  | property =>
    show Gives (page.propertyEntries _) _
    unfold propertyEntries
    split
    · exact .error _ _
    · exact (Gives.anything _).bind fun _ _ => .ok (hown _ _)
  | delegate => exact (Gives.anything _).bind fun _ _ => .ok (hown _ _)
  | constructor =>
    refine (gives_constructorIdentifier_isRooted h).bind fun identifier hidentifier => ?_
    refine (Gives.anything _).bind fun _ _ => (Gives.anything _).bind fun _ _ => ?_
    exact .ok (canonical_single hidentifier _ _)
  | method =>
    refine (Gives.anything _).bind fun _ _ => (Gives.anything _).bind fun _ _ => ?_
    refine (Gives.anything _).bind fun _ _ => ?_
    exact .ok (canonical_single h _ _)
  | event =>
    refine (Gives.anything _).bind fun snippets _ => ?_
    split
    · exact .error _ _
    · split
      · refine (Gives.anything _).bind fun cell _ => (Gives.anything _).bind fun spelling _ => ?_
        split
        · exact .error _ _
        · refine (gives_handlerIdentifier_isRooted h).bind fun identifier hidentifier => ?_
          exact .ok (canonical_single hidentifier _ _)
      · exact .error _ _
  | record =>
    show Gives (page.recordEntries _) _
    unfold recordEntries
    split
    · exact .error _ _
    · split
      · exact .ok (hown _ _)
      · exact (Gives.anything _).bind fun _ _ => .ok (hown _ _)
  | interface =>
    refine (Gives.anything _).bind fun _ _ => (Gives.anything _).bind fun _ _ => ?_
    exact (Gives.anything _).bind fun _ _ => .ok (hown _ _)
  | overview => exact .ok nofun

end Page

namespace Document

open Markup

/-- The script names of the members on an enumeration page; other pages have none. -/
def memberNames (page : Node) : List String :=
  match page.findBelow? isTitleFrame, page.findBelow? isMainPart with
  | some frame, some main =>
    match PageKind.ofTitle (trimmed frame.innerText) with
    | .ok .enumeration => Page.scriptNames (Section.ofNodes 1 main.children)
    | _ => []
  | _, _ => []

/-- All entries of a document are canonical. -/
def Canonical (document : Document) : Prop :=
  ∀ found, document.outcome = .entries found → found.Canonical

theorem gives_read_canonical (options : DocumentOptions) {page : Node} {identifier : String}
    (h : Identifier.IsRooted identifier)
    (hnames : ∀ name ∈ memberNames page, IsAscii name.toList) :
    Gives (read options page identifier) Canonical := by
  unfold read
  unfold memberNames at hnames
  split
  · rename_i frame main hframe hmain
    rw [hframe, hmain] at hnames
    dsimp only at hnames ⊢
    cases hkind : PageKind.ofTitle (trimmed frame.innerText) with
    | error e => exact .error _ _
    | ok kind =>
      rw [hkind] at hnames
      show Gives (if kind = .overview then _ else _) _
      split
      · exact .ok nofun
      · split
        · rename_i found hfound
          refine .ok fun entries hentries => DocumentOutcome.entries.inj hentries ▸ ?_
          refine Page.gives_canonical ?_ kind ?_ found hfound
          · exact h
          · rintro rfl
            exact hnames
        · exact .ok nofun
        · exact .error _ _
  · exact .error _ _

/-- The entries of a document below the usual root are canonical, if its help identifier and the
names of an enumeration's members are ASCII. -/
theorem gives_parse_canonical {reader : PageReader} {options : DocumentOptions}
    (hroot : options.root = "windows") {text : String}
    (hid : ∀ rawId, helpId? (reader text) = some rawId → IsAscii rawId.toList)
    (hnames : ∀ name ∈ memberNames (reader text), IsAscii name.toList) :
    Gives (parse reader options text) Canonical := by
  unfold parse ofPage
  dsimp only
  split
  · exact .ok nofun
  · rename_i rawId hrawId
    split
    · exact .ok nofun
    · rename_i identifier hidentifier
      rw [hroot] at hidentifier
      split
      · exact .ok nofun
      · split
        · exact .ok nofun
        · exact gives_read_canonical options (isRooted_identifier? (hid rawId hrawId) hidentifier)
            hnames

end Document

end ScriptTypings
