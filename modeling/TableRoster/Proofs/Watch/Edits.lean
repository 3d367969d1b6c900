import TableRoster.Proofs.Agreement
import TableRoster.Proofs.Scan.Rewrite
import TableRoster.Proofs.Watch.Seconds

/-! # Edits of modules

An edit writes a module anew, and leaves the rest of the disk alone. What is found stays the same
through edits and generations, so a snapshot differs from an earlier one exactly by the times, and by the
time of the last edit in any case. -/

namespace TableRoster

open Disk

/-- One edit, after the disks that were there up to now, the latest first: a module is written anew, at
a time that it never had. -/
inductive Edit (s : Settings) : List Disk → List Disk → Prop
  | module {d past files file q bytes₀ t₀ bytes t now} :
      (Scan.modules s d).result = .ok files → file ∈ files →
      d.stat file = .ok (q, .file bytes₀ t₀) →
      (∀ e ∈ d :: past, ∀ t', e.modified? file = some t' →
        (Snapshot.seconds t == Snapshot.seconds t') = false) →
      Edit s (d :: past) (d.rewrite q bytes t now :: d :: past)

/-- So many edits. -/
inductive Edits (s : Settings) : Nat → List Disk → List Disk → Prop
  | none {ds} : Edits s 0 ds ds
  | more {n ds ds' ds''} : Edits s n ds ds' → Edit s ds' ds'' → Edits s (n + 1) ds ds''

/-- A tree with modules that are found, and with an output that is no link. -/
structure Sound (s : Settings) (files : List Path) (d : Disk) : Prop where
  tree : IsTree d
  link : ¬ Output.IsLink d s.outputFile
  modules : (Scan.modules s d).result = .ok files

variable {s : Settings} {d d' e : Disk} {ds ds' past : List Disk} {files : List Path} {t : Timestamp}
  {g : Generated} {n : Nat}

/-- A file that was written stays as it is where another file is written anew, and can be written
again. -/
theorem Output.Written.rewrite {path : Path} {content content' : String} {q : Place} {bytes : ByteArray}
    {modified now : Int} (h : Output.Written path content d d') (hq : d'.IsFileAt q)
    (hne : Output.place d path ≠ q) :
    (Output.read? path (d'.rewrite q bytes modified now)).result
        = .ok (some (String.ofList (Text.unifyLineEnds content.toList)))
      ∧ (Output.write path content' (d'.rewrite q bytes modified now)).1.result = .ok () := by
  obtain ⟨time, hf⟩ := h.file
  have hg := grown_rewrite h.tree hq bytes modified now
  constructor
  · obtain ⟨u, hleads, hle⟩ := h.leads
    have hs := (stat_eq_ok_iff h.tree).2 ⟨u, hleads, hle, hf⟩
    have hsame : Output.read? path (d'.rewrite q bytes modified now) = Output.read? path d' := by
      simp only [Output.read?, isFile_rewrite hq, Disk.text, Disk.bytes, hs, stat_rewrite_of_ne hq hs hne]
    rw [hsame]
    exact h.read?
  · refine Output.write_ok (h.tree.rewrite hq bytes modified now) h.parts_ne_nil ?_ ?_ ?_ content'
    · rw [isFolder_rewrite hq]
      exact h.parent
    · rw [isFolder_rewrite hq]
      exact h.beside
    · rw [Output.place_eq_of_grown hg, Output.place_eq_of_grown h.grown]
      exact ⟨_, time, by rw [node?_rewrite hq, if_neg hne, hf]⟩

/-! ## Generations -/

/-- Growth that a search does not notice keeps the times of what was found. -/
theorem Snapshot.timesOf_unnoticed {out : Place} (h : Scan.Unnoticed s out d d')
    (hm : (Scan.modules s d).result = .ok files) : timesOf d' files = timesOf d files := by
  refine List.filterMap_congr fun file hf => ?_
  rw [modified?, modified?, h.stat hm hf]

namespace Sound

/-- A generation keeps what is found, and when it was changed. -/
theorem generate (ht : IsTree d) (ho : ¬ Output.IsLink d s.outputFile)
    (h : (generate s t d).1.result = .ok g) (hl : Scan.LinksStay s d (TableRoster.generate s t d).2) :
    ∃ files, Sound s files d ∧ Sound s files (TableRoster.generate s t d).2
      ∧ Snapshot.timesOf (TableRoster.generate s t d).2 files = Snapshot.timesOf d files := by
  obtain ⟨ha, -, -⟩ | ⟨a, previous, ha, hp, hwrite, -⟩ := generate_cases h
  · obtain ⟨files, hm⟩ := Collection.modules_of_aggregate ha
    rw [(generate_none ha).2]
    exact ⟨files, ⟨ht, ho, hm⟩, ⟨ht, ho, hm⟩, rfl⟩
  · obtain ⟨files, hm⟩ := Collection.modules_of_aggregate ha
    have hwritten := Output.write_written ht (possible_of_aggregate ha) ho hwrite
    rw [← (generate_some ha hp).2] at hwritten
    have hgrowth := Scan.unnoticed_of_written hwritten ht hl
    exact ⟨files, ⟨ht, ho, hm⟩, ⟨hwritten.tree, mt hwritten.isLink_iff.1 ho, hgrowth.modules hm⟩,
      Snapshot.timesOf_unnoticed hgrowth hm⟩

theorem generated (hd : Sound s files d) (h : (TableRoster.generate s t d).1.result = .ok g)
    (hl : Scan.LinksStay s d (TableRoster.generate s t d).2) :
    Sound s files (TableRoster.generate s t d).2
      ∧ Snapshot.timesOf (TableRoster.generate s t d).2 files = Snapshot.timesOf d files := by
  obtain ⟨files', hd', hsound, htimes⟩ := generate hd.tree hd.link h hl
  obtain rfl : files = files' := Except.ok.inj (hd.modules.symm.trans hd'.modules)
  exact ⟨hsound, htimes⟩

/-! ## Edits -/

theorem edit (hd : Sound s files d) (h : Edit s (d :: past) ds) :
    ∃ d', ds = d' :: d :: past ∧ Sound s files d'
      ∧ ∀ e ∈ d :: past, (Snapshot.timesOf d' files).same (Snapshot.timesOf e files) = false := by
  cases h with
  | @module _ _ files' file q bytes₀ t₀ bytes t now hm hf hs hnew =>
    obtain rfl : files = files' := Except.ok.inj (hd.modules.symm.trans hm)
    obtain ⟨-, -, -, hq⟩ := (stat_eq_ok_iff hd.tree).1 hs
    have hfile : d.IsFileAt q := ⟨bytes₀, t₀, hq⟩
    have hg := grown_rewrite hd.tree hfile bytes t now
    refine ⟨_, rfl, ⟨hd.tree.rewrite hfile bytes t now, ?_, ?_⟩, fun e he => ?_⟩
    · rw [Output.IsLink, Output.place_eq_of_grown hg, hg.link?_eq]
      exact hd.link
    · rw [Scan.modules_rewrite s hd.tree hfile, hm]
    · by_contra hsame
      have hnow : (d.rewrite q bytes t now).modified? file = some t := modified?_rewrite hfile hd.tree hs
      obtain ⟨y, hy, heq⟩ := Snapshot.mem_of_same (by simpa using hsame)
        (Snapshot.mem_timesOf.2 ⟨hf, t, hnow, rfl⟩)
      obtain ⟨-, t', ht', rfl⟩ := Snapshot.mem_timesOf.1 hy
      rw [hnew e he t' ht'] at heq
      cases heq

/-- Edits keep what is found, but its times are not what they ever were before. -/
theorem edits (hd : Sound s files d) (h : Edits s n (d :: past) ds) :
    ∃ d' past', ds = d' :: past' ∧ Sound s files d' ∧ d :: past ⊆ d' :: past'
      ∧ (n = 0 ∧ d' = d
        ∨ ∀ e ∈ d :: past, (Snapshot.timesOf d' files).same (Snapshot.timesOf e files) = false) := by
  generalize hds : d :: past = ds₀ at h
  induction h with
  | none =>
    subst hds
    exact ⟨d, past, rfl, hd, List.Subset.refl _, .inl ⟨rfl, rfl⟩⟩
  | more _ hedit ih =>
    obtain ⟨d₁, past₁, rfl, hd₁, hsub, -⟩ := ih hds
    obtain ⟨d', rfl, hd', hnew⟩ := hd₁.edit hedit
    exact ⟨d', d₁ :: past₁, rfl, hd', fun e he => List.mem_cons_of_mem _ (hsub he),
      .inr fun e he => hnew e (hsub he)⟩

end Sound

end TableRoster
