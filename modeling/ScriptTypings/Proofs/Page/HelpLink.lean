import ScriptTypings.Page.Document
import ScriptTypings.Proofs.Text.Percent
import ScriptTypings.Proofs.Text.Search

/-!
# Help identifiers and links

A page carries its help identifier as it is, and links to the page carry it in some percent
encoding. The page looks for the name of the root in the lower-case form of the identifier, and the
link is decoded, cut behind its first `Id=` and freed of the letter of its kind. Both come to the
same identifier, whatever stands behind the name of the root (`ofPage_eq_ofLink`).
-/

namespace ScriptTypings

open Text Markup

/-! ### Raw help identifiers -/

/-- A help identifier: the letter of its kind, a colon, and a text that begins with the name of the
root in some casing. -/
def IsHelpId (root : String) (rawId : List Char) : Prop :=
  ∃ kind spelled rest, ('A' ≤ kind ∧ kind ≤ 'Z') ∧ lower spelled = lower root.toList ∧
    rawId = kind :: ':' :: (spelled ++ rest)

variable {root : String} {rawId encoding : String}

theorem lowerAlone_of_lt {c : Char} (h : c.toNat < 128) : lowerAlone c = [lowerChar c] := by
  refine if_neg ?_
  rintro rfl
  exact absurd h (by decide)

/-- The name of the root is found behind the first colon. -/
theorem Document.identifier?_of_isHelpId (hroot : IsAscii root.toList)
    (h : IsHelpId root rawId.toList) :
    identifier? root rawId = some (Identifier.canonical (.ofList (rawId.toList.drop 2))) := by
  obtain ⟨kind, spelled, rest, hkind, hspelled, hraw⟩ := h
  have hascii : kind.toNat < 128 := Nat.lt_of_le_of_lt hkind.2 (by decide)
  have hcolon : lowerChar kind ≠ ':' := by
    intro hlower
    have hsame : lowerChar kind = kind := eq_of_lowerChar_lt (by rw [hlower]; decide)
    rw [← hsame, hlower] at hkind
    exact absurd hkind.1 (by decide)
  have hsigma : 'Σ' ∉ spelled := by
    have hlower : IsAscii (lower spelled) := hspelled ▸ isAscii_lower hroot
    exact not_mem_of_isAscii_lowerFrom hlower
  have hhead : 'Σ' ∉ [kind, ':'] := by
    rw [List.mem_pair, not_or]
    refine ⟨?_, by decide⟩
    rintro rfl
    exact absurd hascii (by decide)
  obtain ⟨tail, htail⟩ : ∃ tail, lower rawId.toList =
      lowerChar kind :: (':' :: lower root.toList ++ tail) := by
    have hlower := lowerFrom_append_of_not_mem (List.not_mem_append hhead hsigma) [] rest
    rw [List.flatMap_append, ← lowerFrom_of_not_mem hsigma [], List.flatMap_cons,
      lowerAlone_of_lt hascii] at hlower
    rw [hraw, ← hspelled]
    exact ⟨_, hlower⟩
  rw [identifier?, htail, splitAt?_cons_of_ne hcolon, splitAt?_append_self]
  rfl

/-- The link to a page is decoded to the help identifier, from which the kind is dropped. -/
theorem Identifier.ofLink_of_isHelpId (h : IsHelpId root rawId.toList)
    (hencoding : PercentEncodes rawId.toList encoding.toList) :
    ofLink ("ms-xhelp:///?Id=" ++ encoding) = canonical (.ofList (rawId.toList.drop 2)) := by
  obtain ⟨kind, spelled, rest, hkind, -, hraw⟩ := h
  have hdecoded : percentDecode ("ms-xhelp:///?Id=" ++ encoding).toList =
      "ms-xhelp:///?Id=".toList ++ rawId.toList := by
    rw [String.toList_append]
    exact percentDecode_of_percentEncodes ((percentEncodes_self (by decide)).append hencoding)
  have hcut : splitAt? "Id=".toList ("ms-xhelp:///?Id=".toList ++ rawId.toList) =
      some ("ms-xhelp:///?".toList, rawId.toList) := rfl
  have hdrop : dropKind rawId.toList = rawId.toList.drop 2 := by
    rw [hraw]
    exact if_pos (by simpa using hkind)
  have hchars : ofLinkChars ("ms-xhelp:///?Id=" ++ encoding).toList =
      canonicalChars (rawId.toList.drop 2) := by
    rw [ofLinkChars, hdecoded, hcut]
    exact congrArg canonicalChars hdrop
  rw [ofLink, hchars, canonical, String.toList_ofList]

/-! ### Pages -/

namespace Document

/-- What is made of a page whose identifier is known. -/
def ofIdentifier (options : DocumentOptions) (page : Node) (identifier : String) :
    Except PageError Document :=
  let title := ((page.findBelow? (Node.hasTag "title")).map fun t => trimmed t.innerText).getD ""
  if !(categories page).contains (lowered ("DevLang:" ++ options.language)) then
    .ok ⟨title, none, .skipped (.otherLanguage options.language)⟩
  else if isBelow options.excluded (lowered identifier) then
    .ok ⟨title, none, .skipped .excludedNamespace⟩
  else read options page identifier

/-- A page is taken for what the links to it name. -/
theorem ofPage_eq_ofLink (options : DocumentOptions) (hroot : IsAscii options.root.toList)
    (hrawId : IsHelpId options.root rawId.toList)
    (hencoding : PercentEncodes rawId.toList encoding.toList) {page : Node}
    (hpage : helpId? page = some rawId) :
    let target := Identifier.ofLink ("ms-xhelp:///?Id=" ++ encoding)
    (helpId? page).bind (identifier? options.root) = some target ∧
    ofPage options page = ofIdentifier options page target := by
  intro target
  have hidentifier : identifier? options.root rawId = some target := by
    rw [identifier?_of_isHelpId hroot hrawId, ← Identifier.ofLink_of_isHelpId hrawId hencoding]
  refine ⟨?_, ?_⟩
  · rw [hpage, Option.bind_some, hidentifier]
  · rw [ofPage, hpage]
    dsimp only
    rw [hidentifier]
    rfl

/-- The help identifier of a method with type parameters, as it is written for a call. -/
def methodId : String :=
  "M:WINDOWS.Maß.Add\x601(Id=%)"

/-- The identifier with some of its characters escaped. -/
def methodLink : String :=
  "M:WINDOWS.Ma%c3%9F.Add%601(Id=%25)"

theorem percentEncodes_methodLink : PercentEncodes methodId.toList methodLink.toList := by
  have hfront : PercentEncodes "M:WINDOWS.Ma".toList "M:WINDOWS.Ma".toList :=
    percentEncodes_self (by decide)
  have hletter : PercentEncodes ['ß'] "%c3%9F".toList :=
    percentEncodes_of_escapes (.cons rfl (.cons rfl .nil))
  have hname : PercentEncodes ".Add".toList ".Add".toList := percentEncodes_self (by decide)
  have htick : PercentEncodes [Identifier.tick] "%60".toList :=
    percentEncodes_of_escapes (.cons rfl .nil)
  have hcall : PercentEncodes "1(Id=".toList "1(Id=".toList := percentEncodes_self (by decide)
  have hmark : PercentEncodes ['%'] "%25".toList :=
    percentEncodes_of_escapes (.cons rfl .nil)
  have hend : PercentEncodes ")".toList ")".toList := percentEncodes_self (by decide)
  exact hfront.append (hletter.append (hname.append (htick.append
    (hcall.append (hmark.append hend)))))

def methodPage : Node :=
  .element "html" []
    [.element "meta" [("name", "Microsoft.Help.Id"), ("content", methodId)] []]

/-- The page of the method and a link to it. -/
theorem ofPage_eq_ofLink_methodPage :
    let options : DocumentOptions := {}
    IsAscii options.root.toList ∧ IsHelpId options.root methodId.toList ∧
    PercentEncodes methodId.toList methodLink.toList ∧ helpId? methodPage = some methodId ∧
    (helpId? methodPage).bind (identifier? options.root) =
      some (Identifier.ofLink ("ms-xhelp:///?Id=" ++ methodLink)) ∧
    Identifier.ofLink ("ms-xhelp:///?Id=" ++ methodLink) = "WINDOWS.Maß.Add" := by
  intro options
  have hroot : IsAscii options.root.toList := by decide
  have hrawId : IsHelpId options.root methodId.toList :=
    ⟨'M', "WINDOWS".toList, ".Maß.Add\x601(Id=%)".toList, by decide, by decide +kernel, rfl⟩
  have hpage : helpId? methodPage = some methodId := by decide +kernel
  have hsame := ofPage_eq_ofLink options hroot hrawId percentEncodes_methodLink hpage
  refine ⟨hroot, hrawId, percentEncodes_methodLink, hpage, hsame.1, ?_⟩
  rw [Identifier.ofLink_of_isHelpId hrawId percentEncodes_methodLink]
  decide +kernel

end Document

end ScriptTypings
