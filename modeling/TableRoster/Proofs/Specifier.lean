import Mathlib.Data.List.Infix
import TableRoster.Proofs.Path.Normal
import TableRoster.Proofs.Path.Parts
import TableRoster.Specifier

/-! # Specifiers lead back to their modules

A specifier, put behind the folder it is for and with the suffix of a source file again, leads to its
module. So two modules share a specifier only by an override. What else stands in a specifier has been in
the path of its module. -/

namespace TableRoster

namespace Root

/-- What follows a rooted text leaves the root alone, unless it makes a second slash. -/
theorem ofText_append {s t : List Char} (h : ofText s = .slash) (hne : s ≠ ['/']) :
    ofText (s ++ t) = .slash := by
  unfold ofText at h
  split at h
  · cases h
  · rename_i c r
    have hc : c = '/' := by simpa using h
    simp [ofText, hc]
  · rename_i r hshort hlong
    cases r with
    | nil => exact absurd rfl hne
    | cons c r =>
      have hc : c ≠ '/' := by
        rintro rfl
        cases r with
        | nil => exact hshort rfl
        | cons d r => exact hlong d r rfl
      simp [ofText, hc]
  · cases h

end Root

namespace Specifier

open TableRoster.Path (IsPart between partsOf ofString)

variable {here : List String} {overrides : List (String × String)}
  {folder module key name part specifier target text : String}
  {front back : List (String × String)} {s : List Char}

/-- The names that the text of a rooted path leads to. -/
def placeOf (text : String) : List String :=
  Path.normalParts (ofString text).parts

theorem absoluteParts_ofString (h : Root.ofText text.toList = .slash) :
    (ofString text).absoluteParts here = placeOf text := by
  simp [Path.absoluteParts, Path.isAbsolute, ofString, h, placeOf]

theorem isPart_of_mem_placeOf (h : part ∈ placeOf text) :
    IsPart part ∧ ∀ c ∈ part.toList, c ∈ text.toList :=
  Path.isPart_of_mem_partsOf (Path.mem_normalParts h).1

/-! ## Overrides -/

/-- A key that stands somewhere in the path of a module. -/
def Occurs (key module : String) : Prop :=
  key.toList <:+: (ofString module).text.toList

theorem occursIn_iff_occurs :
    Text.occursIn key.toList (ofString module).text.toList = true ↔ Occurs key module :=
  Text.occursIn_iff

theorem turned_of_not_mem (h : '\\' ∉ s) : turned s = s := by
  have hid : ∀ c ∈ s, (if c = '\\' then '/' else c) = id c :=
    fun c hc => if_neg (ne_of_mem_of_not_mem hc h)
  rw [turned, List.map_congr_left hid, List.map_id]

/-- The text of a path has no character that it was not written with, but a dot and slashes. -/
theorem not_mem_text_ofString {c : Char} (hdot : c ≠ '.') (hslash : c ≠ '/') (h : c ∉ text.toList) :
    c ∉ (ofString text).text.toList := by
  have hparts : c ∉ ("/".intercalate (ofString text).parts).toList := by
    rw [Path.toList_joined]
    intro hc
    rcases Text.mem_of_mem_intercalate hc with hc | ⟨l, hl, hc⟩
    · exact hslash (List.mem_singleton.1 hc)
    · obtain ⟨part, hpart, rfl⟩ := List.mem_map.1 hl
      exact h ((Path.isPart_of_mem_partsOf hpart).2 c hc)
  unfold Path.text
  split
  · simpa using hdot
  · rw [String.toList_append, List.mem_append, not_or]
    refine ⟨?_, hparts⟩
    cases (ofString text).root <;> simp [Root.text, hslash]

theorem override?_eq (h : '\\' ∉ module.toList) : override? overrides (ofString module)
    = (overrides.find? fun o => Text.occursIn o.1.toList (ofString module).text.toList).map (·.2) := by
  rw [override?, turned_of_not_mem (not_mem_text_ofString (by decide) (by decide) h)]

theorem override?_first (h : '\\' ∉ module.toList) (hfront : ∀ o ∈ front, ¬ Occurs o.1 module)
    (hkey : Occurs key module) :
    override? (front ++ (key, target) :: back) (ofString module) = some target := by
  have hskip : front.find? (fun o => Text.occursIn o.1.toList (ofString module).text.toList) = none := by
    rw [List.find?_eq_none]
    exact fun o ho => mt occursIn_iff_occurs.1 (hfront o ho)
  rw [override?_eq h, List.find?_append, hskip, Option.none_or, List.find?_cons,
    occursIn_iff_occurs.2 hkey]
  rfl

theorem override?_none (h : '\\' ∉ module.toList) (hnone : ∀ o ∈ overrides, ¬ Occurs o.1 module) :
    override? overrides (ofString module) = none := by
  rw [override?_eq h, Option.map_eq_none_iff, List.find?_eq_none]
  exact fun o ho => mt occursIn_iff_occurs.1 (hnone o ho)

/-! ## Dots -/

theorem dropSuffix_append (s : List Char) : dropSuffix (s ++ sourceSuffix) = s := by
  simp [dropSuffix, List.isSuffixOf_iff_suffix]

/-- A specifier that says by its start that it is relative. -/
def IsDotted (s : List Char) : Prop :=
  ['.', '/'] <+: s ∨ ['.', '.', '/'] <+: s

theorem isDotted_dotted (s : List Char) : IsDotted (dotted s) := by
  unfold dotted
  split
  · rename_i h
    simpa only [IsDotted, List.isPrefixOf_iff_prefix] using h
  · exact .inl (List.prefix_append ['.', '/'] s)

/-- The dots put in front of a text lead nowhere. -/
theorem partsOf_dotted (s t : List Char) : partsOf (dotted s ++ t) = partsOf (s ++ t) := by
  unfold dotted
  split
  · rfl
  · exact Path.partsOf_append_slash ['.'] (s ++ t)

/-! ## The way to a module -/

/-- A module that can be imported into a folder: the rooted path of a source file, which is neither the
folder nor one above it. -/
structure Importable (folder module : String) : Prop where
  rooted : Root.ofText module.toList = .slash
  no_backslash : '\\' ∉ module.toList
  is_source : ∃ name ∈ (placeOf module).getLast?, sourceSuffix <:+ name.toList
  apart : ¬ placeOf module <+: placeOf folder

/-- A specifier that leads from a folder to a module. Behind the topmost folder it makes a second slash,
which is a root of its own. -/
structure LeadsTo (folder specifier module : String) : Prop where
  is_dotted : IsDotted specifier.toList
  place : placeOf (folder ++ "/" ++ specifier ++ ".ts") = placeOf module
  root : folder ≠ "/" → Root.ofText (folder ++ "/" ++ specifier ++ ".ts").toList = .slash

theorem isPart_of_mem_between (h : part ∈ between (placeOf folder) (placeOf module)) :
    IsPart part ∧ ∀ c ∈ part.toList, c = '.' ∨ c ∈ module.toList := by
  rcases Path.mem_between h with rfl | h
  · exact ⟨⟨by decide, by decide, by decide⟩, by simp⟩
  · exact (isPart_of_mem_placeOf h).imp_right fun hsub c hc => .inr (hsub c hc)

/-- The names on the way to a module, as they are written, end with the suffix of a source file. -/
theorem Importable.suffix (h : Importable folder module) :
    sourceSuffix <:+ ("/".intercalate (between (placeOf folder) (placeOf module))).toList := by
  obtain ⟨name, hname, hsuffix⟩ := h.is_source
  obtain ⟨hlast, -⟩ := Path.getLast?_between h.apart
  rw [← hlast, Option.mem_def, List.getLast?_eq_some_iff] at hname
  obtain ⟨init, hinit⟩ := hname
  have hend : [name.toList] <:+ (init ++ [name]).map String.toList := by simp
  rw [Path.toList_joined, hinit]
  exact hsuffix.trans (Text.suffix_intercalate ['/'] hend)

/-- A relative specifier is written as the way to the module, less the suffix. -/
theorem Importable.relative_eq (h : Importable folder module)
    (hfolder : Root.ofText folder.toList = .slash) (here : List String) :
    ∃ body, ("/".intercalate (between (placeOf folder) (placeOf module))).toList = body ++ sourceSuffix
      ∧ relative here (ofString folder) (ofString module) = String.ofList (dotted body) := by
  obtain ⟨body, hbody⟩ := h.suffix
  obtain ⟨-, hne⟩ := Path.getLast?_between h.apart
  have hback : '\\' ∉ body ++ sourceSuffix := by
    rw [hbody, Path.toList_joined]
    intro hc
    rcases Text.mem_of_mem_intercalate hc with hc | ⟨l, hl, hc⟩
    · simp at hc
    · obtain ⟨part, hpart, rfl⟩ := List.mem_map.1 hl
      exact ((isPart_of_mem_between hpart).2 _ hc).elim (by decide) h.no_backslash
  refine ⟨body, hbody.symm, ?_⟩
  rw [relative, absoluteParts_ofString hfolder, absoluteParts_ofString h.rooted, relativeText,
    if_neg hne, ← hbody, turned_of_not_mem hback, dropSuffix_append]

theorem Importable.leadsTo_relative (h : Importable folder module)
    (hfolder : Root.ofText folder.toList = .slash) :
    LeadsTo folder (relative here (ofString folder) (ofString module)) module := by
  obtain ⟨body, hway, hrelative⟩ := h.relative_eq hfolder here
  have htext : (folder ++ "/" ++ relative here (ofString folder) (ofString module) ++ ".ts").toList
      = folder.toList ++ '/' :: (dotted body ++ sourceSuffix) := by
    simp [hrelative, sourceSuffix]
  have hparts : partsOf (dotted body ++ sourceSuffix) = between (placeOf folder) (placeOf module) := by
    rw [partsOf_dotted, ← hway, Path.partsOf_joined fun part hpart => (isPart_of_mem_between hpart).1]
  refine ⟨?_, ?_, fun hne => ?_⟩
  · rw [hrelative, String.toList_ofList]
    exact isDotted_dotted body
  · have hway : (between (placeOf folder) (placeOf module)).foldl Path.enter ([] ++ placeOf folder)
        = [] ++ placeOf module :=
      Path.foldl_enter_between (Path.up_not_mem_normalParts _) (Path.up_not_mem_normalParts _)
    rw [placeOf, ofString, htext, Path.partsOf_append_slash, hparts, Path.normalParts_append]
    exact hway
  · rw [htext]
    exact Root.ofText_append hfolder fun he => hne (String.toList_inj.1 he)

/-- A module is imported by the first override with a key in its path. If there is none, the specifier
leads to the module, and to no other. -/
theorem of_leadsTo (here : List String) (hfolder : Root.ofText folder.toList = .slash)
    (hmodule : Importable folder module) :
    (∀ front key target back, overrides = front ++ (key, target) :: back →
      (∀ o ∈ front, ¬ Occurs o.1 module) → Occurs key module →
        of here overrides (ofString folder) (ofString module) = target) ∧
    ((∀ o ∈ overrides, ¬ Occurs o.1 module) →
      LeadsTo folder (of here overrides (ofString folder) (ofString module)) module ∧
      ∀ other, Importable folder other → (∀ o ∈ overrides, ¬ Occurs o.1 other) →
        placeOf other ≠ placeOf module →
          of here overrides (ofString folder) (ofString other)
            ≠ of here overrides (ofString folder) (ofString module)) := by
  have hleads : ∀ other, Importable folder other → (∀ o ∈ overrides, ¬ Occurs o.1 other) →
      LeadsTo folder (of here overrides (ofString folder) (ofString other)) other := by
    intro other hother hnone
    rw [of, override?_none hother.no_backslash hnone, Option.getD_none]
    exact hother.leadsTo_relative hfolder
  refine ⟨?_, fun hnone => ⟨hleads module hmodule hnone, fun other hother hnone' hne hsame => hne ?_⟩⟩
  · rintro front key target back rfl hfront hkey
    rw [of, override?_first hmodule.no_backslash hfront hkey, Option.getD_some]
  · rw [← (hleads other hother hnone').place, ← (hleads module hmodule hnone).place, hsame]

/-- A module whose name is nothing but the suffix, and one with a name of dots. The text of a key may be
spread over the names of a path. -/
theorem of_leadsTo_dots :
    of [] [("y", "no"), ("b/..", "@x")] (ofString "/w/../a/.") (ofString "/a/b/./../.ts") = "@x" ∧
      LeadsTo "/w/../a/." (of [] [("y", "no")] (ofString "/w/../a/.") (ofString "/a/b/./../.ts"))
        "/a/b/./../.ts" ∧
      of [] [("y", "no")] (ofString "/w/../a/.") (ofString "///..x/..ts")
        ≠ of [] [("y", "no")] (ofString "/w/../a/.") (ofString "/a/b/./../.ts") := by
  have hfolder : Root.ofText "/w/../a/.".toList = .slash := by decide
  have hmodule : Importable "/w/../a/." "/a/b/./../.ts" :=
    ⟨by decide, by decide, ⟨".ts", by decide, by decide⟩, by decide⟩
  have hother : Importable "/w/../a/." "///..x/..ts" :=
    ⟨by decide, by decide, ⟨"..ts", by decide, by decide⟩, by decide⟩
  have hnot : ∀ m ∈ ["/a/b/./../.ts", "///..x/..ts"], ¬ Occurs "y" m := by
    simp only [← occursIn_iff_occurs]
    decide
  have hkey : Occurs "b/.." "/a/b/./../.ts" := occursIn_iff_occurs.1 (by decide)
  have hnone : ∀ m ∈ ["/a/b/./../.ts", "///..x/..ts"], ∀ o ∈ [("y", "no")], ¬ Occurs o.1 m :=
    fun m hm o ho => List.mem_singleton.1 ho ▸ hnot m hm
  refine ⟨(of_leadsTo [] hfolder hmodule).1 [("y", "no")] _ _ [] rfl (hnone _ (by simp)) hkey, ?_⟩
  obtain ⟨hleads, hother'⟩ := (of_leadsTo [] hfolder hmodule).2 (hnone _ (by simp))
  exact ⟨hleads, hother' _ hother (hnone _ (by simp)) (by decide)⟩

/-! ## The characters of a specifier -/

section

variable {folder module : Path} {c : Char}

theorem mem_dotted (h : c ∈ dotted s) : c = '.' ∨ c = '/' ∨ c ∈ s := by
  unfold dotted at h
  split at h
  · exact .inr (.inr h)
  · simpa using h

theorem mem_of_mem_dropSuffix (h : c ∈ dropSuffix s) : c ∈ s := by
  unfold dropSuffix at h
  split at h
  · exact List.mem_of_mem_take h
  · exact h

theorem mem_turned (h : c ∈ turned s) : c ≠ '\\' ∧ (c = '/' ∨ c ∈ s) := by
  obtain ⟨d, hd, rfl⟩ := List.mem_map.1 h
  by_cases hback : d = '\\'
  · simp [hback]
  · simp [hback, hd]

theorem mem_relativeText {parts : List String} (h : c ∈ (relativeText parts).toList) :
    c = '.' ∨ c = '/' ∨ ∃ part ∈ parts, c ∈ part.toList := by
  unfold relativeText at h
  split at h
  · exact .inl (by simpa using h)
  · rw [Path.toList_joined] at h
    rcases Text.mem_of_mem_intercalate h with h | ⟨l, hl, hc⟩
    · exact .inr (.inl (List.mem_singleton.1 h))
    · obtain ⟨part, hpart, rfl⟩ := List.mem_map.1 hl
      exact .inr (.inr ⟨part, hpart, hc⟩)

/-- What stands in a name of a rooted path stands in its text. -/
theorem mem_text_of_mem_part {part : String} (hm : module.isAbsolute = true)
    (hpart : part ∈ module.absoluteParts here) (hc : c ∈ part.toList) : c ∈ module.text.toList := by
  rw [Path.absoluteParts, if_pos hm] at hpart
  have hroot : module.root ≠ .none := by simpa [Path.isAbsolute] using hm
  have hjoined : c ∈ ("/".intercalate module.parts).toList := by
    rw [Path.toList_joined]
    exact Text.mem_intercalate (List.mem_map_of_mem (Path.mem_normalParts hpart).1) hc
  rw [Path.text, if_neg fun h => hroot h.1, String.toList_append]
  exact List.mem_append_right _ hjoined

/-- A relative specifier has its characters from the path of its module, but for dots and slashes. No
backslash is left of it. -/
theorem mem_relative (hm : module.isAbsolute = true) (h : c ∈ (relative here folder module).toList) :
    c ≠ '\\' ∧ (c = '.' ∨ c = '/' ∨ c ∈ module.text.toList) := by
  rw [relative, String.toList_ofList] at h
  rcases mem_dotted h with rfl | rfl | h
  · exact ⟨by decide, .inl rfl⟩
  · exact ⟨by decide, .inr (.inl rfl)⟩
  obtain ⟨hne, rfl | h⟩ := mem_turned (mem_of_mem_dropSuffix h)
  · exact ⟨hne, .inr (.inl rfl)⟩
  refine ⟨hne, ?_⟩
  rcases mem_relativeText h with rfl | rfl | ⟨part, hpart, hc⟩
  · exact .inl rfl
  · exact .inr (.inl rfl)
  rcases Path.mem_between hpart with rfl | hpart
  · exact .inl (by simpa using hc)
  · exact .inr (.inr (mem_text_of_mem_part hm hpart hc))

theorem of_nil (here : List String) (folder module : Path) :
    of here [] folder module = relative here folder module := rfl

end

end Specifier

end TableRoster
