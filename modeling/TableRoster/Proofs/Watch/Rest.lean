import TableRoster.Proofs.Generation
import TableRoster.Proofs.Watch.Run

/-! # A watcher at rest

The look at the modules after a generation sees what the look before it saw, also where the generation
failed. So a watcher whose regenerations are generations comes to rest: without edits it regenerates once
at most. -/

namespace TableRoster

open Disk

variable {s : Settings} {d d' : Disk} {t : Timestamp} {path : Path}

/-! ## What a generation leaves to be seen -/

/-- A search does not notice folders above the output, unless a link leads to something old now. -/
theorem Scan.unnoticed_of_above (ht : IsTree d) (hr : Resolvable d s.outputFile)
    (hi : ∀ x ∈ s.outputFile.parts, isImpossible x = false) (h : GrownAbove path d d')
    (hl : LinksStay s d d') : Unnoticed s ["\x00"] d d' := by
  -- no file has this name, so nothing is said of a file that is new
  have hnone : ∀ {e}, IsTree e → e.node? ["\x00"] = none := by
    intro e he
    by_contra hn
    obtain ⟨n, hn⟩ := Option.ne_none_iff_exists'.1 hn
    have hname := (he.isName_of_snoc (p := []) hn).2.2
    revert hname
    decide
  refine ⟨ht, h.tree, h.grown _, hl, fun output ho => ?_, fun output _ =>
    ⟨unseen_of_none ht (hnone ht), unseen_of_none h.tree (hnone h.tree)⟩⟩
  rw [(h.grown []).realPath ht h.tree hr hi, ho]

theorem generate_unnoticed (ht : IsTree d) (ho : ¬ Output.IsLink d s.outputFile)
    (hr : Resolvable d s.outputFile) (hl : Scan.LinksStay s d (generate s t d).2) :
    (generate s t d).2 = d
      ∨ (∃ files, (Scan.modules s d).result = .ok files)
        ∧ ∃ out, Scan.Unnoticed s out d (generate s t d).2 := by
  obtain hdisk | ⟨a, previous, ha, -, hdisk⟩ := generate_disk (s := s) (d := d) (t := t)
  · exact .inl hdisk
  · rw [hdisk] at hl ⊢
    have hi := possible_of_aggregate ha
    refine .inr ⟨Collection.modules_of_aggregate ha, ?_⟩
    obtain ⟨d₁, habove, ⟨-, hleft⟩ | ⟨hwrite, -⟩⟩ := Output.write_cases a.text ht hi
    · rw [hleft] at hl ⊢
      exact ⟨_, Scan.unnoticed_of_above ht hr hi habove hl⟩
    · exact ⟨_, Scan.unnoticed_of_written (Output.write_written ht hi ho hwrite) ht hl⟩

/-- The modules are seen as before a generation, whatever came of it. -/
theorem Snapshot.take_generate (ht : IsTree d) (ho : ¬ Output.IsLink d s.outputFile)
    (hr : Resolvable d s.outputFile) (hl : Scan.LinksStay s d (generate s t d).2) :
    (take s (generate s t d).2).result = (take s d).result := by
  obtain hdisk | ⟨⟨files, hm⟩, out, hd⟩ := generate_unnoticed ht ho hr hl
  · rw [hdisk]
  · obtain ⟨es, htake⟩ := take_of_modules hm
    obtain ⟨es', htake'⟩ := take_of_modules (hd.modules hm)
    rw [htake, htake', timesOf_unnoticed hd hm]

/-! ## Checks without edits -/

namespace Watcher

variable {w : Watcher} {f : Nat → Change Regeneration} {say : Origin → String}
  {time : Nat → Timestamp} {now : Float}

/-- A watcher has seen the modules as they are, and has nothing to do. -/
structure AtRest (s : Settings) (d : Disk) (w : Watcher) : Prop where
  settings : w.settings = s
  clean : w.dirty = false
  seen : ∀ current, (Snapshot.take s d).result = .ok current → current.same w.seen = true

/-- A check of a watcher at rest changes nothing. -/
theorem AtRest.check (h : AtRest s d w) (f : Nat → Change Regeneration) (now : Float) :
    (w.check f now d).watcher = w ∧ (w.check f now d).disk = d := by
  obtain rfl := h.settings
  rcases htake : Snapshot.take w.settings d with ⟨es, e | current⟩
  · rw [check_crashed htake]
    exact ⟨rfl, rfl⟩
  · rw [check_waits htake (h.seen current (by rw [htake])) (.inl h.clean)]
    exact ⟨rfl, rfl⟩

/-- Cycles at times, with no edit before any of them. -/
def unedited (times : List Float) : List Cycle :=
  times.map fun now => ⟨id, now⟩

theorem cycles_unedited (w : Watcher) (f : Nat → Change Regeneration) (d : Disk) (now : Float)
    (times : List Float) :
    (w.cycles f d (unedited (now :: times))).watcher
        = ((w.check f now d).watcher.cycles f (w.check f now d).disk (unedited times)).watcher
      ∧ (w.cycles f d (unedited (now :: times))).disk
        = ((w.check f now d).watcher.cycles f (w.check f now d).disk (unedited times)).disk :=
  ⟨rfl, rfl⟩

/-- A watcher at rest stays so, whatever the times of its checks. -/
theorem AtRest.cycles (h : AtRest s d w) (f : Nat → Change Regeneration) (times : List Float) :
    (w.cycles f d (unedited times)).watcher.runs = w.runs
      ∧ (w.cycles f d (unedited times)).disk = d := by
  induction times with
  | nil => exact ⟨rfl, rfl⟩
  | cons now times ih =>
    obtain ⟨hwatcher, hdisk⟩ := cycles_unedited w f d now times
    obtain ⟨hw, hd⟩ := h.check f now
    rw [hwatcher, hdisk, hw, hd]
    exact ih

/-- What was seen before a generation is what is there after it. -/
theorem AtRest.generated (h : AtRest s d w)
    (hsame : (Snapshot.take s d').result = (Snapshot.take s d).result) : AtRest s d' w :=
  ⟨h.settings, h.clean, fun current htake => h.seen current (hsame ▸ htake)⟩

theorem check_settings (w : Watcher) (f : Nat → Change Regeneration) (now : Float) (d : Disk) :
    (w.check f now d).watcher.settings = w.settings := by
  unfold Watcher.check
  split
  · rfl
  · simp only [observe]
    split_ifs
    · rfl
    · rfl
    · rw [runOnce_watcher]

/-- A regeneration that is due brings a watcher to rest. -/
theorem IsDue.atRest (h : w.IsDue now d) : AtRest w.settings d (w.check f now d).watcher
    ∧ (w.check f now d).watcher.runs = w.runs + 1
    ∧ (w.check f now d).disk = (f (w.runs + 1) d).2 := by
  obtain ⟨es, current, htake, hc, hdirty, hq⟩ := h
  obtain ⟨-, hwatcher, hdisk⟩ := check_regenerates htake hc hdirty hq f
  rw [hwatcher]
  refine ⟨⟨rfl, rfl, fun current' htake' => ?_⟩, rfl, hdisk⟩
  rw [htake] at htake'
  cases htake'
  exact hc

/-! ## Checks that regenerate by a generation -/

/-- A check that is due regenerates, and no check after it does. -/
theorem IsDue.cycles (h : w.IsDue now d) (hf : (f (w.runs + 1) d).2 = d')
    (hsame : (Snapshot.take w.settings d').result = (Snapshot.take w.settings d).result)
    (times : List Float) : (w.cycles f d (unedited (now :: times))).watcher.runs = w.runs + 1
      ∧ (w.cycles f d (unedited (now :: times))).disk = d' := by
  obtain ⟨hwatcher, hdisk⟩ := cycles_unedited w f d now times
  obtain ⟨hrest, hruns, hd⟩ := h.atRest (f := f)
  rw [hwatcher, hdisk, hd, hf, ← hruns]
  exact (hrest.generated hsame).cycles f times

/-- There is one regeneration at most. -/
theorem runs_cycles_le (w : Watcher) (hf : (f (w.runs + 1) d).2 = d')
    (hsame : (Snapshot.take w.settings d').result = (Snapshot.take w.settings d).result)
    (times : List Float) : (w.cycles f d (unedited times)).watcher.runs ≤ w.runs + 1 := by
  induction times generalizing w with
  | nil => exact Nat.le_succ w.runs
  | cons now times ih =>
    by_cases hdue : w.IsDue now d
    · exact (hdue.cycles hf hsame times).1.le
    · obtain ⟨turn, hturn, hruns, hd, -⟩ := check_of_not_due hdue
      have hsettings := check_settings w f now d
      rw [(cycles_unedited w f d now times).1]
      rw [hturn f] at hsettings ⊢
      have hle := ih turn.watcher
      rw [hsettings, hruns] at hle
      rw [hd]
      exact hle hf hsame

/-- A watcher does not set itself off. On a tree, with an output that is no link and that is resolved, and
unless the generation made a link that led nowhere lead to something old that the search takes, the
modules are seen after a generation as they were before, whatever came of it. So a watcher that was at
rest stays so; a check that is due is the last one to regenerate, whatever the number of the checks
after it and their times; and without edits there is one regeneration at most. -/
theorem rests (s : Settings) (t : Timestamp) (ht : IsTree d) (ho : ¬ Output.IsLink d s.outputFile)
    (hr : Resolvable d s.outputFile) (hl : Scan.LinksStay s d (generate s t d).2) :
    (Snapshot.take s (generate s t d).2).result = (Snapshot.take s d).result
      ∧ (∀ w f times, AtRest s d w →
          (w.cycles f (generate s t d).2 (unedited times)).watcher.runs = w.runs
            ∧ (w.cycles f (generate s t d).2 (unedited times)).disk = (generate s t d).2)
      ∧ ∀ say (time : Nat → Timestamp) (w : Watcher), w.settings = s → time (w.runs + 1) = t →
          (∀ now times, w.IsDue now d →
            (w.cycles (fun run => regeneration say (generate s (time run))) d
                (unedited (now :: times))).watcher.runs = w.runs + 1
              ∧ (w.cycles (fun run => regeneration say (generate s (time run))) d
                (unedited (now :: times))).disk = (generate s t d).2)
          ∧ ∀ times, (w.cycles (fun run => regeneration say (generate s (time run))) d
              (unedited times)).watcher.runs ≤ w.runs + 1 := by
  have hsame := Snapshot.take_generate ht ho hr hl
  refine ⟨hsame, fun w f times hw => (hw.generated hsame).cycles f times, ?_⟩
  intro say time w hs htime
  subst hs htime
  exact ⟨fun now times hdue => hdue.cycles regeneration_disk hsame times,
    runs_cycles_le w regeneration_disk hsame⟩

/-- A watcher that has noted a change and sees a disk. -/
def dirtyWatcher (d : Disk) : Watcher :=
  ⟨linkedSettings, 1, 0.5, 0, Snapshot.timesOf d [⟨.slash, ["ws", "schema", "a.ts"]⟩], true, 0, false⟩

theorem isDue_dirtyWatcher (hm : (Scan.modules linkedSettings d).result
    = .ok [⟨.slash, ["ws", "schema", "a.ts"]⟩]) : (dirtyWatcher d).IsDue 10 d := by
  obtain ⟨es, htake⟩ := Snapshot.take_of_modules hm
  have hq : ¬ (10 : Float) - 0 < 0.5 := by decide
  exact ⟨es, _, htake, Snapshot.timesOf_same_self d _, rfl, hq⟩

/-- The link may come to lead to the file that is written. -/
theorem rests_new_link :
    (Snapshot.take linkedSettings (linkedRun "../out/index.ts").2).result
        = (Snapshot.take linkedSettings (linkedDisk "../out/index.ts")).result
      ∧ ∀ times, ((dirtyWatcher (linkedDisk "../out/index.ts")).cycles
          (fun _ => regeneration (fun _ => "") (generate linkedSettings (linkedTime 5)))
          (linkedDisk "../out/index.ts") (unedited (10 :: times))).watcher.runs = 1 := by
  have hr : Resolvable (linkedDisk "../out/index.ts") linkedSettings.outputFile :=
    ⟨0, _, .step (by decide) (.step (by decide) (.step (by decide) .here))⟩
  obtain ⟨hsame, -, hwatch⟩ := rests linkedSettings (linkedTime 5)
    (show IsTree (linkedDisk "../out/index.ts") by decide) (not_isLink_linkedDisk _) hr linksStay_linkedRun
  have hdue : (dirtyWatcher (linkedDisk "../out/index.ts")).IsDue 10 (linkedDisk "../out/index.ts") :=
    isDue_dirtyWatcher (eq_ok_of_toOption (by decide +kernel))
  obtain ⟨hruns, -⟩ := hwatch (fun _ => "") (fun _ => linkedTime 5)
    (dirtyWatcher (linkedDisk "../out/index.ts")) rfl rfl
  exact ⟨hsame, fun times => (hruns 10 times hdue).1⟩

/-- A link that leads back to itself once a folder is there, and an output behind it. -/
def loopedDisk : Disk :=
  ⟨[(["ws"], .folder), (["ws", "schema"], .folder), (["ws", "a"], .link "nx/../a"),
    (["ws", "schema", "a.ts"], .file "export const a = pgTable(1);\n".toUTF8 0)], ["ws"], 0⟩

def loopedSettings : Settings :=
  { linkedSettings with outputFile := ⟨.slash, ["ws", "nx", "..", "a", "index.ts"]⟩ }

/-- A link that comes to lead to an old file makes a module of it, and a link that comes to lead back to
itself keeps modules from being found. The watcher regenerates again for the module. -/
theorem restless_old_link :
    (IsTree (linkedDisk "../out/../real/b.ts")
        ∧ ¬ Output.IsLink (linkedDisk "../out/../real/b.ts") linkedSettings.outputFile
        ∧ (Snapshot.take linkedSettings (linkedRun "../out/../real/b.ts").2).result
          ≠ (Snapshot.take linkedSettings (linkedDisk "../out/../real/b.ts")).result
        ∧ (dirtyWatcher (linkedDisk "../out/../real/b.ts")).IsDue 10 (linkedDisk "../out/../real/b.ts")
        ∧ ((dirtyWatcher (linkedDisk "../out/../real/b.ts")).cycles
            (fun _ => regeneration (fun _ => "") (generate linkedSettings (linkedTime 5)))
            (linkedDisk "../out/../real/b.ts") (unedited [10, 20, 30])).watcher.runs = 2)
      ∧ IsTree loopedDisk ∧ ¬ Output.IsLink loopedDisk loopedSettings.outputFile
        ∧ (Snapshot.take loopedSettings (generate loopedSettings (linkedTime 5) loopedDisk).2).result
          ≠ (Snapshot.take loopedSettings loopedDisk).result := by
  have hold : (Snapshot.take linkedSettings
      (linkedDisk "../out/../real/b.ts")).result.toOption.map List.length = some 1 := by decide +kernel
  have hnew : (Snapshot.take linkedSettings
      (linkedRun "../out/../real/b.ts").2).result.toOption.map List.length = some 2 := by decide +kernel
  have hopen : (Snapshot.take loopedSettings loopedDisk).result.toOption.map List.length = some 1 := by
    decide +kernel
  have hloop : (Snapshot.take loopedSettings (generate loopedSettings (linkedTime 5)
      loopedDisk).2).result.toOption.map List.length = none := by decide +kernel
  refine ⟨⟨by decide, not_isLink_linkedDisk _, fun he => ?_, ?_, by decide +kernel⟩, by decide,
    by decide, fun he => ?_⟩
  · rw [he, hold] at hnew
    cases hnew
  · exact isDue_dirtyWatcher (eq_ok_of_toOption (by decide +kernel))
  · rw [he, hopen] at hloop
    cases hloop

end Watcher

end TableRoster
