import TableRoster.Proofs.Disk.Apart
import TableRoster.Proofs.Validation

/-! # The output before a generation

What the output was like before is not in what is generated: the search takes the output for no module,
and the file is replaced as a whole. So a generation makes any text whole again. -/

namespace TableRoster

open Disk

variable {s : Settings} {d d' : Disk} {t : Timestamp} {p q : Place} {path folder : Path} {n : Node}
  {content : String} {a : Aggregate}

namespace Output

/-- The output is a file in a folder, or missing from one. Its folder is also there if every `..` takes
back the name before it, as it is when the file beside the output is made. -/
structure Placed (path : Path) (p : Place) (d : Disk) : Prop where
  arrives : ∃ n, d.walk false path = .ok ⟨p, n⟩
  holds : d.HoldsFile p
  beside : d.isFolder (beside d path) = true

/-- A place holds a text, or nothing. -/
def HoldsText (d : Disk) (p : Place) : Prop :=
  d.node? p = none ∨ ∃ (content : String) (time : Int), d.node? p = some (.file content.toUTF8 time)

namespace Placed

/-! ## Where the output is -/

theorem in_folder (h : Placed path p d) (ht : IsTree d) :
    path.parts ≠ [] ∧ path.name ≠ "." ∧ path.name ≠ ".."
      ∧ ∃ u q, Leads d (d.startOf path) path.parent.parts u q ∧ u ≤ linkLimit
        ∧ d.node? q = some .folder ∧ p = q ++ [path.name] := by
  obtain ⟨n, hw⟩ := h.arrives
  have hne : path.parts ≠ [] := by
    intro he
    simp only [walk, he, linkLimit, walkFrom, stretch, ht.startOf, Except.ok.injEq,
      Arrival.mk.injEq] at hw
    exact h.holds.ne_folder (hw.1 ▸ ht.startOf path)
  have hpath : path = ⟨path.root, path.parent.parts ++ [path.name]⟩ := by
    rw [← parts_eq hne]
  rw [hpath] at hw
  obtain ⟨u, q, hq, hu, hf, ha⟩ := (walk_snoc_eq_ok_iff ht).1 hw
  obtain ⟨rfl, -⟩ := Arrival.mk.inj ha
  obtain ⟨hstep, hd, hup⟩ := ht.stepTo_of_not_folder hf h.holds.ne_folder
  exact ⟨hne, hd, hup, u, q, hq, hu, hf, hstep⟩

theorem place_eq (h : Placed path p d) (ht : IsTree d) : place d path = p := by
  obtain ⟨-, -, -, u, q, hq, -, -, rfl⟩ := h.in_folder ht
  have hreal : d.resolvePlace path.parent = q := hq.resolvePlace ht
  rw [place, hreal]

theorem parent (h : Placed path p d) (ht : IsTree d) : d.isFolder path.parent = true := by
  obtain ⟨-, -, -, u, q, hq, hu, hf, -⟩ := h.in_folder ht
  exact (isFolder_iff ht).2 ⟨u, q, hq, hu, hf⟩

theorem not_isLink (h : Placed path p d) (ht : IsTree d) : ¬ IsLink d path := by
  rw [IsLink, h.place_eq ht, h.holds.link?]
  exact fun hn => hn rfl

theorem realPath (h : Placed path p d) (ht : IsTree d) (hi : ∀ x ∈ path.parts, isImpossible x = false) :
    d.realPath path = .ok ⟨.slash, p⟩ := by
  obtain ⟨hne, hd, hup, u, q, hq, -, -, rfl⟩ := h.in_folder ht
  have hlast : Resolves d q [path.name] 0 (q ++ [path.name]) := by
    refine .step (fun _ _ => h.holds.link?) ?_
    rw [stepTo, if_neg hd, if_neg hup]
    exact .here
  have hall := (hq.resolves ht).append hlast
  rw [← parts_eq hne] at hall
  exact hall.realPath ht hi

/-- What the path leads to is the file. -/
theorem stat_eq (h : Placed path p d) (ht : IsTree d) (hs : d.stat path = .ok (q, n)) :
    q = p ∧ d.node? p = some n := by
  obtain ⟨hne, hd, hup, u, r, hr, -, -, rfl⟩ := h.in_folder ht
  obtain ⟨v, hq, -, hn⟩ := (stat_eq_ok_iff ht).1 hs
  rw [parts_eq hne] at hq
  obtain ⟨_, _, m, hm, hlast, -⟩ := hq.split
  obtain ⟨-, rfl⟩ := hm.unique hr
  have hstep : stepTo m path.name = m ++ [path.name] := by rw [stepTo, if_neg hd, if_neg hup]
  cases hlast with
  | step _ _ _ hrest =>
    rw [hstep] at hrest
    obtain rfl := h.holds.leads hrest
    exact ⟨rfl, hn⟩
  | link _ hl _ _ =>
    rw [hstep] at hl
    exact absurd hl (link?_eq_none_iff.1 h.holds.link? _)

theorem apart (h : Placed path p d) (hs : SameApart p d d') (ht : IsTree d) (ht' : IsTree d')
    (hp' : d'.HoldsFile p) : Placed path p d' := by
  obtain ⟨hne, hd, hup, u, q, hq, hu, hf, rfl⟩ := h.in_folder ht
  have hqne : q ≠ q ++ [path.name] := by simp
  have hpath : path = ⟨path.root, path.parent.parts ++ [path.name]⟩ := by
    rw [← parts_eq hne]
  have hbeside : Output.beside d' path = Output.beside d path := by rw [Output.beside, hs.here]; rfl
  have hw : d'.walk false ⟨path.root, path.parent.parts ++ [path.name]⟩
      = .ok ⟨q ++ [path.name], d'.node? (q ++ [path.name])⟩ :=
    (walk_snoc_eq_ok_iff ht').2 ⟨u, q, hs.leads_path h.holds hq hqne, hu, (hs.node q hqne).trans hf,
      by rw [stepTo, if_neg hd, if_neg hup]⟩
  rw [← hpath] at hw
  exact ⟨⟨_, hw⟩, hp', hbeside ▸ hs.isFolder ht ht' h.holds h.beside⟩

/-! ## Reading and writing it -/

theorem read? (h : Placed path p d) (ht : IsTree d) (htext : HoldsText d p) :
    ∃ previous, (Output.read? path d).result = .ok previous := by
  by_cases hf : d.isFile path = true
  · obtain ⟨u, q, bytes, time, hq, hu, hn⟩ := (isFile_iff ht).1 hf
    have hs := (stat_eq_ok_iff ht).2 ⟨u, hq, hu, hn⟩
    obtain ⟨rfl, -⟩ := h.stat_eq ht hs
    obtain hnone | ⟨content, time', htext⟩ := htext
    · rw [hn] at hnone
      cases hnone
    · obtain ⟨rfl, rfl⟩ := Node.file.inj (Option.some.inj (hn.symm.trans htext))
      exact ⟨_, read?_of_stat hs⟩
  · refine ⟨none, ?_⟩
    rw [Output.read?, if_neg hf]
    rfl

theorem stat {bytes : ByteArray} {time : Int} (h : Placed path p d) (ht : IsTree d)
    (hn : d.node? p = some (.file bytes time)) : d.stat path = .ok (p, .file bytes time) := by
  obtain ⟨hne, hd, hup, u, q, hq, hu, hf, rfl⟩ := h.in_folder ht
  have hstep : stepTo q path.name = q ++ [path.name] := by rw [stepTo, if_neg hd, if_neg hup]
  have hlast : Leads d q [path.name] 0 (q ++ [path.name]) :=
    .step hf (hstep ▸ hn) (by simp) (hstep ▸ .here)
  have hall := hq.append hlast
  rw [← parts_eq hne] at hall
  exact (stat_eq_ok_iff ht).2 ⟨u, hall, hu, hn⟩

/-- A file that holds no text is not read. -/
theorem read?_of_no_text (h : Placed path p d) (ht : IsTree d) (htext : ¬ HoldsText d p) :
    (Output.read? path d).result = .error (.failure (.outputUnreadable path .encoding)) := by
  obtain ⟨bytes, time, hn⟩ := h.holds.resolve_left fun hnone => htext (.inl hnone)
  have hs := h.stat ht hn
  have hbytes : String.fromUTF8? bytes = none := by
    by_contra hsome
    obtain ⟨content, hcontent⟩ := Option.ne_none_iff_exists'.1 hsome
    unfold String.fromUTF8? at hcontent
    split at hcontent
    · rename_i hvalid
      exact htext (.inr ⟨String.fromUTF8 bytes hvalid, time, hn⟩)
    · cases hcontent
  simp [Output.read?, isFile, Disk.text, Disk.bytes, hs, textOf, hbytes, Telling.fail]

theorem write (h : Placed path p d) (ht : IsTree d) (hi : ∀ x ∈ path.parts, isImpossible x = false)
    (content : String) : (Output.write path content d).1.result = .ok ()
      ∧ Written path content d (Output.write path content d).2
      ∧ SameApart p d (Output.write path content d).2 := by
  obtain ⟨hne, hd, hup, -⟩ := h.in_folder ht
  have hplace := h.place_eq ht
  have heq := write_eq ht hne hd hup (h.parent ht) h.beside (hplace ▸ h.holds.ne_folder) content
  have hok : (Output.write path content d).1.result = .ok () := by rw [heq]; rfl
  refine ⟨hok, write_written ht hi (h.not_isLink ht) hok, ?_⟩
  rw [heq, hplace]
  exact ⟨rfl, fun q hq => node?_put_of_ne { d with now := d.now + tick } _ hq⟩

end Placed

end Output

/-! ## Looking for modules -/

/-- No link that led nowhere leads to something old by a change of one file. -/
theorem Scan.linksStay_of_apart (hs : SameApart p d d') (ht : IsTree d) (ht' : IsTree d')
    (hp : d.HoldsFile p) (hp' : d'.HoldsFile p) : LinksStay s d d' := by
  intro folder r name target _ _ _ hthere q n hstat _
  by_contra hnone
  obtain ⟨u, hq, hu, hn⟩ := (stat_eq_ok_iff ht').1 hstat
  have hfile : q = p → d.IsFileAt p := by
    rintro rfl
    exact hp.resolve_left hnone
  have hq' : Leads d (d.startOf ⟨.slash, r ++ [name]⟩) (r ++ [name]) u q := hs.symm.leads hp' hq hfile
  obtain ⟨m, hm⟩ := Option.ne_none_iff_exists'.1 hnone
  rw [(isThere_iff ht).2 ⟨u, q, m, hq', hu, hm⟩] at hthere
  cases hthere

theorem Scan.unnoticed_of_apart (hs : SameApart p d d') (ht : IsTree d) (ht' : IsTree d')
    (h : Output.Placed s.outputFile p d) (hp' : d'.HoldsFile p)
    (hi : ∀ x ∈ s.outputFile.parts, isImpossible x = false)
    (hmore : d.node? p = none ∨ d'.IsFileAt p) : Unnoticed s p d d' := by
  refine ⟨ht, ht', hs.grown ht ht' h.holds hp' hmore, linksStay_of_apart hs ht ht' h.holds hp',
    fun output ho => ?_, fun output ho => ?_⟩
  · rw [← ho, h.realPath ht hi, (h.apart hs ht ht' hp').realPath ht' hi]
  · rw [h.realPath ht hi] at ho
    cases ho
    exact ⟨unseen_output ht h.holds, unseen_output ht' hp'⟩

/-- What the tables make does not depend on the output. -/
theorem Collection.aggregate_apart (hs : SameApart p d d') (ht : IsTree d) (ht' : IsTree d')
    (h : Output.Placed s.outputFile p d) (hp' : d'.HoldsFile p)
    (ha : (aggregate s folder t d).result = .ok (some a)) :
    (aggregate s folder t d').result = .ok (some a) := by
  obtain ⟨found, hm⟩ := modules_of_aggregate ha
  obtain ⟨hschema, output, ho⟩ := Scan.of_modules_result hm
  have hi := possible_of_realPath ho
  by_cases hmore : d.node? p = none ∨ d'.IsFileAt p
  · rw [aggregate_eq (Scan.unnoticed_of_apart hs ht ht' h hp' hi hmore) hschema ho, ha]
  · -- the file is gone, so the disk before has grown from the disk after
    have h' := h.apart hs ht ht' hp'
    have hgrown := Scan.unnoticed_of_apart hs.symm ht' ht h' h.holds hi
      (.inl (hp'.resolve_right fun hf => hmore (.inr hf)))
    rw [← aggregate_eq hgrown (hs.isFolder ht ht' h.holds hschema) (h'.realPath ht' hi), ha]

/-! ## Generating -/

namespace Output.Placed

variable (h : Placed s.outputFile p d) (ht : IsTree d) (htext : HoldsText d p)
  (ha : (Collection.aggregate s s.outputFolder t d).result = .ok (some a))

include h ht htext ha

/-- A generation writes what the tables make, in place of any text or of nothing. -/
theorem generate : ∃ previous, (generate s t d).1.result = .ok (generatedFrom s a previous)
    ∧ Written s.outputFile a.text d (TableRoster.generate s t d).2
    ∧ Scan.LinksStay s d (TableRoster.generate s t d).2 := by
  obtain ⟨previous, hread⟩ := h.read? ht htext
  obtain ⟨hresult, hdisk⟩ := generate_some ha hread
  obtain ⟨hok, hwritten, hapart⟩ := h.write ht (possible_of_aggregate ha) a.text
  rw [hok] at hresult
  rw [hdisk]
  obtain ⟨time, hfile⟩ := hwritten.file
  rw [h.place_eq ht] at hfile
  exact ⟨previous, hresult, hwritten,
    Scan.linksStay_of_apart hapart ht hwritten.tree h.holds (.inr ⟨_, time, hfile⟩)⟩

/-- A check with a fix ends well, and what it leaves is valid. -/
theorem check : ∃ c, (TableRoster.check s t true d).1.result = .ok c ∧ c.ok = true
    ∧ ∀ u, ∃ v, (validate s u (TableRoster.check s t true d).2).result = .ok v ∧ v.isValid = true := by
  obtain ⟨previous, hread⟩ := h.read? ht htext
  have hv : (validate s t d).result = .ok (verdictOn s (previous.map Drift.normal) (some a)) := by
    rw [validate_result, ha, hread]
    rfl
  cases hvalid : (verdictOn s (previous.map Drift.normal) (some a)).isValid with
  | true =>
    obtain ⟨hresult, hdisk⟩ : (TableRoster.check s t true d).1.result = .ok ⟨_, none⟩
        ∧ (TableRoster.check s t true d).2 = d := check_of_idle hv (.inl hvalid)
    rw [hdisk]
    refine ⟨_, hresult, by simp [Checked.ok, hvalid], fun u => ?_⟩
    obtain ⟨v, hu, hsame⟩ := validate_time u hv
    exact ⟨v, hu, hsame.trans hvalid⟩
  | false =>
    obtain ⟨hresult, hdisk⟩ := check_of_invalid hv hvalid
    obtain ⟨previous', hg, -, hl⟩ := h.generate ht htext ha
    rw [hg] at hresult
    rw [hdisk]
    exact ⟨_, hresult, by simp [Checked.ok, generatedFrom],
      fun u => ⟨.inSync, validate_after_generate ht (h.not_isLink ht) hg rfl hl u, rfl⟩⟩

end Output.Placed

/-- A generation does not depend on what the output held before. Where the tables of a disk make an
aggregate, then on any disk that is the same apart from the output, and on which the output holds a text
or is missing, a generation succeeds and leaves the text of that aggregate; a check with a fix and a sync
succeed too, and what they leave is valid at any time. An output that holds no text is refused by all
three, and stays. -/
theorem generate_whatever_was_there (s : Settings) (t : Timestamp) (ht : IsTree d) (ht' : IsTree d')
    (hs : SameApart p d d') (h : Output.Placed s.outputFile p d) (hp' : d'.HoldsFile p)
    (ha : (Collection.aggregate s s.outputFolder t d).result = .ok (some a)) :
    (Output.HoldsText d' p →
      (∃ g, (generate s t d').1.result = .ok g ∧ g.written = true ∧ g.aggregate = some a
        ∧ (generate s t d').2.bytes s.outputFile = .ok a.text.toUTF8)
      ∧ (∃ c, (check s t true d').1.result = .ok c ∧ c.ok = true
        ∧ ∀ u, ∃ v, (validate s u (check s t true d').2).result = .ok v ∧ v.isValid = true)
      ∧ ∃ c, (sync s t d').1.result = .ok c ∧ c.ok = true
        ∧ ∀ u, ∃ v, (validate s u (sync s t d').2).result = .ok v ∧ v.isValid = true)
    ∧ (¬ Output.HoldsText d' p →
      ((generate s t d').1.result = .error (.failure (.outputUnreadable s.outputFile .encoding))
        ∧ (generate s t d').2 = d')
      ∧ ((check s t true d').1.result = .error (.failure (.outputUnreadable s.outputFile .encoding))
        ∧ (check s t true d').2 = d')
      ∧ (sync s t d').1.result = .error (.failure (.outputUnreadable s.outputFile .encoding))
        ∧ (sync s t d').2 = d') := by
  have h' := h.apart hs ht ht' hp'
  have ha' := Collection.aggregate_apart hs ht ht' h hp' ha
  obtain ⟨hsync, hdisk⟩ := sync_eq_check (s := s) (d := d') (t := t)
  rw [hsync, hdisk]
  constructor
  · intro htext
    obtain ⟨previous, hg, hwritten, -⟩ := h'.generate ht' htext ha'
    have hcheck := h'.check ht' htext ha'
    exact ⟨⟨_, hg, rfl, rfl, hwritten.bytes⟩, hcheck, hcheck⟩
  · intro htext
    have hread := h'.read?_of_no_text ht' htext
    have hv : (validate s t d').result
        = .error (.failure (.outputUnreadable s.outputFile .encoding)) := by
      rw [validate_result, ha', hread]
      rfl
    have hcheck : (check s t true d').1.result
          = .error (.failure (.outputUnreadable s.outputFile .encoding))
        ∧ (check s t true d').2 = d' := check_of_error hv
    exact ⟨generate_unread ha' hread, hcheck, hcheck⟩

/-! ## Outputs of a disk -/

/-- A disk on which the output is missing from its folder, with a link to it. -/
def missingDisk : Disk :=
  (linkedDisk "../out/index.ts").put ["ws", "out"] .folder

/-- The same disk with an output. -/
def previousDisk (bytes : ByteArray) : Disk :=
  missingDisk.put ["ws", "out", "index.ts"] (.file bytes 0)

theorem placed_missingDisk : Output.Placed linkedSettings.outputFile ["ws", "out", "index.ts"] missingDisk :=
  ⟨⟨none, eq_ok_of_toOption (by decide)⟩, .inl (by decide), by decide⟩

theorem same_previousDisk (bytes : ByteArray) :
    SameApart ["ws", "out", "index.ts"] missingDisk (previousDisk bytes) :=
  ⟨rfl, fun _ hq => node?_put_of_ne missingDisk _ hq⟩

theorem isTree_missingDisk : IsTree missingDisk := by decide

theorem isTree_previousDisk (bytes : ByteArray) : IsTree (previousDisk bytes) :=
  isTree_missingDisk.put (p := ["ws", "out"]) (by decide) (by decide)
    (.inr (by decide))

theorem node?_previousDisk (bytes : ByteArray) :
    (previousDisk bytes).node? ["ws", "out", "index.ts"] = some (.file bytes 0) :=
  node?_put_self missingDisk _ (by simp)

theorem exists_aggregate {s : Settings} {d : Disk} (h : (Collection.aggregate s s.outputFolder t d).result.toOption.map
    (·.isSome) = some true) : ∃ a, (Collection.aggregate s s.outputFolder t d).result = .ok (some a) := by
  obtain ⟨made, hmade, hsome⟩ := exists_ok_of_map h
  obtain ⟨a, rfl⟩ := Option.isSome_iff_exists.1 hsome
  exact ⟨a, hmade⟩

theorem aggregate_missingDisk :
    ∃ a, (Collection.aggregate linkedSettings linkedSettings.outputFolder (linkedTime 5)
      missingDisk).result = .ok (some a) :=
  exists_aggregate (by decide +kernel)

/-- An output with a text is made anew, and one that is no text is refused. -/
theorem generate_whatever_was_there_two :
    (∃ a g, (Collection.aggregate linkedSettings linkedSettings.outputFolder (linkedTime 5)
        missingDisk).result = .ok (some a)
      ∧ (generate linkedSettings (linkedTime 5) (previousDisk "old".toUTF8)).1.result = .ok g
      ∧ (generate linkedSettings (linkedTime 5) (previousDisk "old".toUTF8)).2.bytes
        linkedSettings.outputFile = .ok a.text.toUTF8)
    ∧ (generate linkedSettings (linkedTime 5) (previousDisk ⟨#[0xff]⟩)).2 = previousDisk ⟨#[0xff]⟩ := by
  obtain ⟨a, ha⟩ := aggregate_missingDisk
  have hold := node?_previousDisk "old".toUTF8
  have hbad := node?_previousDisk ⟨#[0xff]⟩
  have hno : ¬ Output.HoldsText (previousDisk ⟨#[0xff]⟩) ["ws", "out", "index.ts"] := by
    rintro (hnone | ⟨content, time, htext⟩)
    · rw [hbad] at hnone
      cases hnone
    · obtain ⟨hbytes, -⟩ := Node.file.inj (Option.some.inj (hbad.symm.trans htext))
      have hvalid : String.fromUTF8? ⟨#[0xff]⟩ = some content := by
        rw [hbytes]
        exact dif_pos content.isValidUTF8
      have hinvalid : String.fromUTF8? ⟨#[0xff]⟩ = none := by decide
      rw [hinvalid] at hvalid
      cases hvalid
  obtain ⟨hmade, -⟩ := generate_whatever_was_there linkedSettings (linkedTime 5)
    isTree_missingDisk (isTree_previousDisk "old".toUTF8) (same_previousDisk _) placed_missingDisk (.inr ⟨_, 0, hold⟩) ha
  obtain ⟨-, hrefused⟩ := generate_whatever_was_there linkedSettings (linkedTime 5)
    isTree_missingDisk (isTree_previousDisk ⟨#[0xff]⟩) (same_previousDisk _) placed_missingDisk (.inr ⟨_, 0, hbad⟩) ha
  obtain ⟨⟨g, hg, -, -, hbytes⟩, -⟩ := hmade (.inr ⟨"old", 0, hold⟩)
  exact ⟨⟨a, g, ha, hg, hbytes⟩, (hrefused hno).1.2⟩

/-- A disk with a folder for the output, and a link on the way to it: with `..` taking back the name
before it, the folder is another one, which is not there. -/
def farDisk : Disk :=
  ⟨[(["ws"], .folder), (["ws", "schema"], .folder), (["ws", "far"], .folder),
    (["ws", "far", "deep"], .folder), (["ws", "far", "sub"], .folder), (["ws", "l"], .link "far/deep"),
    (["ws", "schema", "a.ts"], .file "export const a = pgTable(1);\n".toUTF8 0)], ["ws"], 0⟩

def farSettings : Settings :=
  { linkedSettings with outputFile := ⟨.slash, ["ws", "l", "..", "sub", "index.ts"]⟩ }

/-- A generation succeeds where the output is missing, but not where it holds a byte that is no text; and
it does not succeed where the file beside the output has no folder. -/
theorem generate_fails_on_previous :
    (IsTree missingDisk ∧ IsTree (previousDisk ⟨#[0xff]⟩)
        ∧ SameApart ["ws", "out", "index.ts"] missingDisk (previousDisk ⟨#[0xff]⟩)
        ∧ Output.Placed linkedSettings.outputFile ["ws", "out", "index.ts"] missingDisk
        ∧ (∃ a, (Collection.aggregate linkedSettings linkedSettings.outputFolder (linkedTime 5)
          missingDisk).result = .ok (some a))
        ∧ (∃ g, (generate linkedSettings (linkedTime 5) missingDisk).1.result = .ok g)
        ∧ ¬ ∃ g, (generate linkedSettings (linkedTime 5) (previousDisk ⟨#[0xff]⟩)).1.result = .ok g)
      ∧ IsTree farDisk
        ∧ farDisk.walk false farSettings.outputFile = .ok ⟨["ws", "far", "sub", "index.ts"], none⟩
        ∧ (∃ a, (Collection.aggregate farSettings farSettings.outputFolder (linkedTime 5)
          farDisk).result = .ok (some a))
        ∧ ¬ ∃ g, (generate farSettings (linkedTime 5) farDisk).1.result = .ok g := by
  have hbad : (generate linkedSettings (linkedTime 5)
      (previousDisk ⟨#[0xff]⟩)).1.result.toOption.map (·.written) = none := by decide +kernel
  have hfar : (generate farSettings (linkedTime 5) farDisk).1.result.toOption.map (·.written) = none := by
    decide +kernel
  obtain ⟨g, hg, -⟩ : ∃ g, (generate linkedSettings (linkedTime 5) missingDisk).1.result = .ok g
      ∧ g.written = true := exists_ok_of_map (by decide +kernel)
  refine ⟨⟨isTree_missingDisk, isTree_previousDisk _, same_previousDisk _, placed_missingDisk,
    aggregate_missingDisk, ⟨g, hg⟩, ?_⟩, by decide, eq_ok_of_toOption (by decide),
    exists_aggregate (by decide +kernel), ?_⟩
  · rintro ⟨g, hg⟩
    rw [hg] at hbad
    cases hbad
  · rintro ⟨g, hg⟩
    rw [hg] at hfar
    cases hfar

end TableRoster
