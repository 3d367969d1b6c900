import Mathlib.Data.List.Forall2
import TableRoster.Glob
import TableRoster.Proofs.Path.Parts

/-! # What globs exclude

A glob excludes a path if names can be put in place of each `**` so that the row that comes out is as
long as the path and fits it name by name. -/

namespace TableRoster.Glob

variable {ss names : List String} {p root rel : Path}

/-! ## Rows of slots -/

/-- What one name of a path is held against: a segment, or a name in place of a `**`. -/
inductive Slot
  | segment (s : String)
  | name (n : String)

/-- The rows that segments make when names, or none, are put in place of each `**`. -/
inductive Fills : List String → List Slot → Prop
  | nil : Fills [] []
  | stars {ss : List String} {row : List Slot} (names : List String) :
      Fills ss row → Fills ("**" :: ss) (names.map .name ++ row)
  | segment {s : String} {ss : List String} {row : List Slot} :
      s ≠ "**" → Fills ss row → Fills (s :: ss) (.segment s :: row)

/-- A segment fits the names that it matches, and what is in place of a `**` fits any name. -/
def Slot.Fits : Slot → String → Prop
  | segment s, n => matchName s n = true
  | name _, _ => True

theorem fits_names (front : List String) : List.Forall₂ Slot.Fits (front.map .name) front := by
  rw [List.forall₂_map_left_iff]
  exact List.forall₂_same.2 fun _ _ => trivial

/-- The matcher decides if segments can be filled to fit the names. -/
theorem matchNames_iff :
    matchNames ss names = true ↔ ∃ row, Fills ss row ∧ List.Forall₂ Slot.Fits row names := by
  induction ss generalizing names with
  | nil =>
    rw [matchNames, List.isEmpty_iff]
    constructor
    · rintro rfl
      exact ⟨[], .nil, .nil⟩
    · rintro ⟨row, hrow, hfits⟩
      cases hrow
      exact List.forall₂_nil_left_iff.1 hfits
  | cons s ss ih =>
    by_cases hs : s = "**"
    · subst hs
      simp only [matchNames, ↓reduceIte, List.any_eq_true, Text.mem_suffixes, ih]
      constructor
      · rintro ⟨rest, ⟨front, rfl⟩, row, hrow, hfits⟩
        exact ⟨_, .stars front hrow, List.rel_append (fits_names front) hfits⟩
      · rintro ⟨row, hrow, hfits⟩
        cases hrow with
        | stars free hrow =>
          -- the names behind as many as stand in place of the `**`
          exact ⟨_, List.drop_suffix _ _, _, hrow, (List.forall₂_drop_append _ _ _ hfits.flip).flip⟩
        | segment hne _ => exact absurd rfl hne
    · cases names with
      | nil =>
        simp only [matchNames, if_neg hs, Bool.false_eq_true, false_iff]
        rintro ⟨row, hrow, hfits⟩
        cases hrow with
        | stars => exact hs rfl
        | segment => cases hfits
      | cons n names =>
        simp only [matchNames, if_neg hs, Bool.and_eq_true, ih]
        constructor
        · rintro ⟨hn, row, hrow, hfits⟩
          exact ⟨_, .segment hs hrow, .cons hn hfits⟩
        · rintro ⟨row, hrow, hfits⟩
          cases hrow with
          | stars => exact absurd rfl hs
          | segment _ hrow =>
            obtain ⟨hn, hfits⟩ := List.forall₂_cons.1 hfits
            exact ⟨hn, _, hrow, hfits⟩

/-! ## Paths -/

/-- The text of a path comes apart into its parts, whatever its root. -/
theorem splitSlashes_text (hp : p.Written) (hne : p.parts ≠ []) :
    splitSlashes p.text.toList = p.parts := by
  obtain ⟨⟨c, s, hfirst, hc⟩, d, t, hlast, hd⟩ := Path.ends_joined hne hp
  have htext : p.text.toList = p.root.text.toList ++ ("/".intercalate p.parts).toList := by
    rw [Path.text, if_neg fun h => hne h.2, String.toList_append]
  have hfront : p.text.toList.dropWhile (· = '/') = ("/".intercalate p.parts).toList := by
    rw [htext, hfirst]
    cases p.root <;> simp [Root.text, hc]
  have hback : ("/".intercalate p.parts).toList.reverse.dropWhile (· = '/')
      = ("/".intercalate p.parts).toList.reverse := by
    rw [hlast]
    simp [hd]
  rw [splitSlashes, hfront, hback, List.reverse_reverse, Path.splitAt_joined hne hp]

/-- What a glob is held against: the names of a path from its root on, or those below the folder. -/
def namesFor (root rel : Path) (glob : String) : List String :=
  if (turned glob).head? = some '/' then root.parts ++ rel.parts else rel.parts

theorem excludes_iff (hroot : root.Written) (hrel : rel.Written) (hr : rel.isAbsolute = false)
    (hne : rel.parts ≠ []) (glob : String) : excludes root (root.join rel) glob = true ↔
      ∃ row, Fills (splitSlashes (turned glob)) row
        ∧ List.Forall₂ Slot.Fits row (namesFor root rel glob) := by
  have hjoin : root.join rel = ⟨root.root, root.parts ++ rel.parts⟩ := by simp [Path.join, hr]
  have hbelow : (root.join rel).relativeTo? root = some ⟨.none, rel.parts⟩ := by
    simp [hjoin, Path.relativeTo?]
  have hwhole : splitSlashes (root.join rel).text.toList = root.parts ++ rel.parts := by
    rw [splitSlashes_text (hroot.join hrel) (by simp [hjoin, hne]), hjoin]
  have hrest : splitSlashes (Path.text ⟨.none, rel.parts⟩).toList = rel.parts :=
    splitSlashes_text (p := ⟨.none, rel.parts⟩) hrel hne
  rw [excludes, matchNames_iff, hbelow, Option.getD_some, namesFor]
  split
  · rw [hwhole]
  · rw [hrest]

/-- The globs exclude a path below a folder exactly if one of them can be filled to fit it. The folder does
not matter unless a glob starts with a slash. -/
theorem isExcluded_iff (hroot : root.Written) (hrel : rel.Written) (hr : rel.isAbsolute = false)
    (hne : rel.parts ≠ []) (globs : List String) :
    (isExcluded root (root.join rel) globs = true ↔ ∃ glob ∈ globs,
      ∃ row, Fills (splitSlashes (turned glob)) row
        ∧ List.Forall₂ Slot.Fits row (namesFor root rel glob)) ∧
    ((∀ glob ∈ globs, (turned glob).head? ≠ some '/') → ∀ root' : Path, root'.Written →
      isExcluded root' (root'.join rel) globs = isExcluded root (root.join rel) globs) := by
  have hany : ∀ root : Path, root.Written → (isExcluded root (root.join rel) globs = true ↔
      ∃ glob ∈ globs, ∃ row, Fills (splitSlashes (turned glob)) row
        ∧ List.Forall₂ Slot.Fits row (namesFor root rel glob)) := fun root hroot => by
    simp only [isExcluded, List.any_eq_true, excludes_iff hroot hrel hr hne]
  refine ⟨hany root hroot, fun hglobs root' hroot' => ?_⟩
  rw [Bool.eq_iff_iff, hany root hroot, hany root' hroot']
  refine exists_congr fun glob => and_congr_right fun hglob => ?_
  simp only [namesFor, if_neg (hglobs glob hglob)]

/-- Of two `**` one stands for a folder and the other for nothing; a backslash makes a glob start at the
root as well. -/
theorem isExcluded_backslash :
    isExcluded (Path.ofString "/w") ((Path.ofString "/w").join (Path.ofString "db/a.ts"))
        ["x", "\\w/**/**/*"] = true ∧
      isExcluded (Path.ofString "/v/u") ((Path.ofString "/v/u").join (Path.ofString "db/a.ts")) ["**/a.??"]
        = isExcluded (Path.ofString "/w") ((Path.ofString "/w").join (Path.ofString "db/a.ts"))
          ["**/a.??"] := by
  have hroot : (Path.ofString "/w").Written := Path.written_ofString _
  have hrel : (Path.ofString "db/a.ts").Written := Path.written_ofString _
  have hrow : Fills ["w", "**", "**", "*"] [.segment "w", .name "db", .segment "*"] :=
    .segment (by decide) (.stars ["db"] (.stars [] (.segment (by decide) .nil)))
  have hfits : List.Forall₂ Slot.Fits [.segment "w", .name "db", .segment "*"] ["w", "db", "a.ts"] :=
    .cons (by simp [Slot.Fits, matchName, elements, matchElements, Element.holds])
      (.cons trivial (.cons (by simp [Slot.Fits, matchName, elements, matchElements, Text.suffixes]) .nil))
  have h := isExcluded_iff hroot hrel (by decide) (by decide)
  exact ⟨(h _).1.2 ⟨"\\w/**/**/*", by simp, _, hrow, hfits⟩,
    (h _).2 (by decide) _ (Path.written_ofString _)⟩

end TableRoster.Glob
