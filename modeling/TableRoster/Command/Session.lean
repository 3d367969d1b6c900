import TableRoster.Disk.Change
import TableRoster.Watch

/-! # Sessions

A session is a run of the program as its user sees it: it says lines, tells events, and may change
the disk. What it said before it stops stays said. -/

namespace TableRoster.Command

structure Outcome (α : Type) where
  lines : List String
  events : List Event
  result : Except Stop α
  disk : Disk

def Session (α : Type) : Type :=
  Disk → Outcome α

namespace Session

instance : Monad Session where
  pure a := fun d => ⟨[], [], .ok a, d⟩
  bind s f := fun d =>
    let o := s d
    match o.result with
    | .error e => ⟨o.lines, o.events, .error e, o.disk⟩
    | .ok a =>
      let p := f a o.disk
      ⟨o.lines ++ p.lines, o.events ++ p.events, p.result, p.disk⟩

def say (line : String) : Session Unit :=
  fun d => ⟨[line], [], .ok (), d⟩

def sayAll (lines : List String) : Session Unit :=
  fun d => ⟨lines, [], .ok (), d⟩

def change (c : Change α) : Session α := fun d =>
  let r := c d
  ⟨[], r.1.events, r.1.result, r.2⟩

/-- A step that only looks at the disk. -/
def look (f : Disk → Telling α) : Session α :=
  change (Change.look f)

end Session

end TableRoster.Command
