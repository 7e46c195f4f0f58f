import Mathlib.Data.List.Forall2
import ScriptTypings.Proofs.Page.WellTyped
import ScriptTypings.Proofs.Text.Classes
import ScriptTypings.Proofs.Text.LowerCase
import ScriptTypings.Proofs.Text.Trim

/-!
# Keys of the entries of a page

The identifier of a page is cut out of its help identifier where the name of the root stands in the
lower-case form of that. One capital letter becomes two characters in lower case; where the help
identifier does not have it, the identifier begins with the name of the root, and no entry of the
page has an empty key (`Document.gives_parse_named`).
-/

namespace ScriptTypings

open Text

/-! ### Lower case, character by character -/

namespace Text

/-- A character in lower case, in some surroundings. -/
def IsLowerOf (c d : Char) : Prop :=
  d = lowerChar c ∨ c = 'Σ' ∧ d = 'ς'

/-- Without the capital letter that becomes two characters, lower case keeps the places of all
characters. -/
theorem forall₂_lowerFrom {s : List Char} (h : 'İ' ∉ s) (before : List Char) :
    List.Forall₂ IsLowerOf s (lowerFrom before s) := by
  induction s generalizing before with
  | nil => exact .nil
  | cons c rest ih =>
    have hdot : c ≠ 'İ' := fun hc => h (hc ▸ List.mem_cons_self)
    have hrest := ih (fun hmem => h (List.mem_cons_of_mem _ hmem)) (c :: before)
    rw [lowerFrom]
    by_cases hsigma : c = 'Σ'
    · obtain rfl := hsigma
      have hlower : lowerChar 'Σ' = 'σ' := by decide +kernel
      rw [if_pos rfl]
      split
      · exact .cons (.inr ⟨rfl, rfl⟩) hrest
      · exact .cons (.inl hlower.symm) hrest
    · rw [if_neg hsigma, if_neg hdot]
      exact .cons (.inl rfl) hrest

theorem lowered_ne_empty {s : String} (h : s ≠ "") : lowered s ≠ "" := by
  have hlower : ∀ t : List Char, t ≠ [] → lower t ≠ [] := by
    intro t ht
    cases t with
    | nil => exact absurd rfl ht
    | cons c rest =>
      rw [lower, lowerFrom]
      split
      · split <;> exact List.cons_ne_nil _ _
      · split <;> exact List.cons_ne_nil _ _
  intro hempty
  have hnil : lower s.toList = [] := by
    rw [← String.toList_ofList (l := lower s.toList)]
    exact String.toList_eq_nil_iff.mpr hempty
  exact hlower _ (fun hs => h (String.toList_eq_nil_iff.mp hs)) hnil

/-- White space has no upper case. -/
theorem isBlank_eq_false_of_isLowerOf {c : Char} (h : IsLowerOf c 'w') : isBlank c = false := by
  refine Bool.eq_false_iff.mpr fun hblank => ?_
  have hletter : lowerChar c ≠ 'w' :=
    of_inRanges (P := fun c => lowerChar c ≠ 'w') (by decide +kernel) hblank
  rcases h with h | ⟨-, h⟩
  · exact hletter h.symm
  · exact absurd h (by decide)

end Text

/-! ### Identifiers -/

/-- What begins with a letter of the root is not emptied by removing decorations. -/
theorem Identifier.canonicalChars_ne_nil {c : Char} (h : IsLowerOf c 'w') (rest : List Char) :
    canonicalChars (c :: rest) ≠ [] := by
  have hplain : ∀ mark, lowerChar mark ≠ 'w' → mark ≠ 'Σ' → c ≠ mark := by
    rintro mark hmark hsigma rfl
    rcases h with h | ⟨h, -⟩
    · exact hmark h.symm
    · exact hsigma h
  have hparen : c ≠ '(' := hplain '(' (by decide +kernel) (by decide)
  have htick : c ≠ tick := hplain tick (by decide +kernel) (by decide)
  obtain ⟨kept, hkept⟩ : ∃ kept, upTo ['('] (c :: rest) = c :: kept := by
    have hlead : dropLead? ['('] (c :: rest) = none := by rw [dropLead?, if_neg hparen.symm]
    rw [upTo, splitAt?, hlead]
    cases splitAt? ['('] rest with
    | none => exact ⟨rest, rfl⟩
    | some cut => exact ⟨cut.1, rfl⟩
  have hdrop : dropTicks 0 false (c :: kept) = c :: dropTicks 0 false kept := by
    rw [dropTicks, if_neg htick]
    simp
  rw [canonicalChars, hkept, hdrop]
  intro hnil
  have hmem : c ∈ trim (c :: dropTicks 0 false kept) :=
    mem_trim_of_mem List.mem_cons_self (isBlank_eq_false_of_isLowerOf h)
  rw [hnil] at hmem
  exact List.not_mem_nil hmem

theorem Document.identifier?_ne_empty {rawId identifier : String} (hdot : 'İ' ∉ rawId.toList)
    (h : identifier? "windows" rawId = some identifier) : identifier ≠ "" := by
  obtain ⟨⟨before, after⟩, hsplit, rfl⟩ := Option.map_eq_some_iff.mp h
  have hroot : lower "windows".toList = "windows".toList := by decide +kernel
  have hlower : lower rawId.toList = before ++ (':' :: lower "windows".toList) ++ after :=
    eq_append_of_splitAt? hsplit
  have hbehind : (lower rawId.toList).drop (before.length + 1) = "windows".toList ++ after := by
    rw [hlower, hroot]
    simp
  -- the place of the root in the lower-case text is its place in the text
  have hplaces := List.forall₂_drop (before.length + 1) (forall₂_lowerFrom hdot [])
  rw [show lowerFrom [] rawId.toList = lower rawId.toList from rfl, hbehind] at hplaces
  show Identifier.canonical (.ofList (rawId.toList.drop (before.length + 1))) ≠ ""
  cases hraw : rawId.toList.drop (before.length + 1) with
  | nil =>
    rw [hraw] at hplaces
    cases hplaces
  | cons c rest =>
    rw [hraw] at hplaces
    obtain ⟨hfirst, -⟩ := List.forall₂_cons.mp hplaces
    rw [Identifier.canonical, String.toList_ofList]
    intro hempty
    apply Identifier.canonicalChars_ne_nil hfirst rest
    rw [← String.toList_ofList (l := Identifier.canonicalChars (c :: rest)), hempty]
    rfl

-- The colon stands behind sixteen characters in lower case, and behind eight as they are written.
example : Document.identifier? "windows" "İİİİİİİİ:Windows" = some "" := by decide +kernel

/-! ### Entries -/

namespace Page

open Markup

/-- Every entry of a page has a key that is not empty. -/
def Entries.Named (entries : Entries) : Prop :=
  ∀ e ∈ entries, e.1 ≠ ""

theorem named_singleton {key : String} (h : key ≠ "") (entry : Entry) :
    Entries.Named [(key, entry)] := by
  intro e he
  rw [List.mem_singleton.mp he]
  exact h

theorem member_ne_empty (owner name : String) : Identifier.member owner name ≠ "" := by
  intro h
  have hlist : (owner ++ "." ++ name).toList = [] := by
    rw [show owner ++ "." ++ name = "" from h]
    rfl
  simp [String.toList_append] at hlist

theorem gives_constructorIdentifier (identifier : String) :
    Gives (constructorIdentifier identifier) (· ≠ "") := by
  unfold constructorIdentifier
  split
  · exact .ok (member_ne_empty _ _)
  · exact .error _ _

theorem gives_handlerIdentifier (identifier : String) :
    Gives (handlerIdentifier identifier) (· ≠ "") := by
  unfold handlerIdentifier
  split
  · rename_i handler hhandler
    refine .ok fun hempty => ?_
    unfold Identifier.mapLast? at hhandler
    dsimp only at hhandler
    split at hhandler
    · cases hhandler
    · have hlist := congrArg String.toList (Option.some.inj hhandler)
      rw [hempty, String.toList_ofList] at hlist
      exact absurd (List.append_eq_nil_iff.mp hlist).2 (List.cons_ne_nil _ _)
  · exact .error _ _

theorem named_enumerationMember {page : Page} {row : List Node} {e : String × Entry}
    (h : page.enumerationMember row = some e) : e.1 ≠ "" := by
  unfold enumerationMember at h
  split at h
  · rw [← Option.some.inj h]
    exact member_ne_empty page.key _
  · cases h

theorem named_own {page : Page} (h : page.identifier ≠ "") (description : String)
    (content : Content) : (page.own description content).Named :=
  named_singleton (lowered_ne_empty h) _

/-- The entries of a page with an identifier have keys. -/
theorem gives_named (page : Page) (hpage : page.identifier ≠ "") (kind : PageKind) :
    Gives (page.entries kind) Entries.Named := by
  have hown : ∀ content, (page.own (firstParagraph page.main) content).Named :=
    named_own hpage _
  cases kind with
  | cls => exact (Gives.anything _).bind fun _ _ => .ok (hown _)
  | attributeType => exact (Gives.anything _).bind fun _ _ => .ok (hown _)
  | enumeration =>
    show Gives (page.enumerationEntries _) _
    unfold enumerationEntries
    split
    · exact .error _ _
    · refine .ok fun e he => ?_
      rcases List.mem_append.mp he with he | he
      · exact hown _ e he
      · obtain ⟨row, -, hrow⟩ := List.mem_filterMap.mp he
        exact named_enumerationMember hrow
  | space => exact (Gives.anything _).bind fun _ _ => .ok (hown _)
  | property =>
    show Gives (page.propertyEntries _) _
    unfold propertyEntries
    split
    · exact .error _ _
    · exact (Gives.anything _).bind fun _ _ => .ok (hown _)
  | delegate => exact (Gives.anything _).bind fun _ _ => .ok (hown _)
  | constructor =>
    refine (gives_constructorIdentifier _).bind fun identifier hidentifier => ?_
    refine (Gives.anything _).bind fun _ _ => (Gives.anything _).bind fun _ _ => ?_
    exact .ok (named_singleton (lowered_ne_empty hidentifier) _)
  | method =>
    refine (Gives.anything _).bind fun _ _ => (Gives.anything _).bind fun _ _ => ?_
    refine (Gives.anything _).bind fun _ _ => ?_
    exact .ok (named_singleton (lowered_ne_empty hpage) _)
  | event =>
    refine (Gives.anything _).bind fun snippets _ => ?_
    split
    · exact .error _ _
    · split
      · refine (Gives.anything _).bind fun cell _ => (Gives.anything _).bind fun spelling _ => ?_
        split
        · exact .error _ _
        · refine (gives_handlerIdentifier _).bind fun identifier hidentifier => ?_
          exact .ok (named_singleton (lowered_ne_empty hidentifier) _)
      · exact .error _ _
  | record =>
    show Gives (page.recordEntries _) _
    unfold recordEntries
    split
    · exact .error _ _
    · split
      · exact .ok (hown _)
      · exact (Gives.anything _).bind fun _ _ => .ok (hown _)
  | interface =>
    refine (Gives.anything _).bind fun _ _ => (Gives.anything _).bind fun _ _ => ?_
    exact (Gives.anything _).bind fun _ _ => .ok (hown _)
  | overview => exact .ok nofun

end Page

namespace Document

/-- Every entry of a document has a key that is not empty. -/
def Named (document : Document) : Prop :=
  ∀ found, document.outcome = .entries found → found.Named

theorem gives_read_named (options : DocumentOptions) (page : Markup.Node) {identifier : String}
    (h : identifier ≠ "") : Gives (read options page identifier) Named := by
  unfold read
  split
  · refine (Gives.anything _).bind fun kind _ => ?_
    dsimp only
    split
    · exact .ok nofun
    · split
      · rename_i found hfound
        exact .ok fun entries hentries =>
          DocumentOutcome.entries.inj hentries ▸ Page.gives_named _ h kind found hfound
      · exact .ok nofun
      · exact .error _ _
  · exact .error _ _

/-- The entries of a document below the usual root have keys, if the help identifier does not have
the letter that becomes two characters in lower case. -/
theorem gives_parse_named {reader : PageReader} {options : DocumentOptions}
    (hroot : options.root = "windows") {text : String}
    (h : ∀ rawId, helpId? (reader text) = some rawId → 'İ' ∉ rawId.toList) :
    Gives (parse reader options text) Named := by
  unfold parse ofPage
  dsimp only
  split
  · exact .ok nofun
  · rename_i rawId hrawId
    split
    · exact .ok nofun
    · rename_i identifier hidentifier
      rw [hroot] at hidentifier
      split
      · exact .ok nofun
      · split
        · exact .ok nofun
        · exact gives_read_named options _ (identifier?_ne_empty (h rawId hrawId) hidentifier)

end Document

end ScriptTypings
