import TableRoster.Proofs.Disk.Rewrite
import TableRoster.Scan

/-! # The search after a file is written anew

A search never looks at what a file holds, so it finds the same modules and tells the same of them. -/

namespace TableRoster.Scan

open Disk

variable {d d' : Disk} {s : Settings} {q : Place} {entries files : List Path} {output : Path}
  {below : Path → Except Failure (List Path)} {bytes : ByteArray} {modified now : Int}

theorem sourcesAmong_congr (hfolder : d'.isFolder = d.isFolder) (hfile : d'.isFile = d.isFile)
    (habs : d'.absolute = d.absolute) :
    sourcesAmong d' below entries = sourcesAmong d below entries := by
  induction entries with
  | nil => rfl
  | cons e es ih => simp only [sourcesAmong, hfolder, hfile, habs, ih]

theorem sourcesBelow_congr (hfolder : d'.isFolder = d.isFolder) (hfile : d'.isFile = d.isFile)
    (habs : d'.absolute = d.absolute) (hchildren : d'.childrenOf = d.childrenOf) (fuel : Nat) :
    sourcesBelow d' fuel = sourcesBelow d fuel := by
  induction fuel with
  | zero => rfl
  | succ fuel ih =>
    funext folder
    simp only [sourcesBelow, hchildren, ih]
    split
    · rfl
    · exact sourcesAmong_congr hfolder hfile habs

theorem modulesAmong_congr (hreal : d'.realPath = d.realPath) :
    modulesAmong d' s output files = modulesAmong d s output files := by
  induction files with
  | nil => rfl
  | cons f fs ih => simp only [modulesAmong, isModule, isOutput, hreal, ih]

/-- A search depends on what paths lead to, and on no more. -/
theorem modules_congr (s : Settings) (hfolder : d'.isFolder = d.isFolder) (hfile : d'.isFile = d.isFile)
    (hchildren : d'.childrenOf = d.childrenOf) (hreal : d'.realPath = d.realPath)
    (habs : d'.absolute = d.absolute) (hdepth : d'.depth = d.depth) : modules s d' = modules s d := by
  unfold modules bound
  rw [hfolder, hreal, hdepth, sourcesBelow_congr hfolder hfile habs hchildren]
  simp only [modulesAmong_congr hreal]

theorem modules_rewrite (s : Settings) (ht : IsTree d) (h : d.IsFileAt q) (bytes : ByteArray)
    (modified now : Int) : modules s (d.rewrite q bytes modified now) = modules s d :=
  modules_congr s (funext fun path => isFolder_rewrite h path) (funext fun path => isFile_rewrite h path)
    (funext fun path => childrenOf_rewrite h ht path) (funext fun path => realPath_rewrite h ht path) rfl
    (depth_rewrite ht h)

end TableRoster.Scan
