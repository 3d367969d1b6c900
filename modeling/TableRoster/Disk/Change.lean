import TableRoster.Disk.Text
import TableRoster.Journal.Telling

/-! # Steps that change a disk

A step looks at a disk, tells events, and leaves a disk. What it changed before it stops stays
changed. -/

namespace TableRoster

/-- A step that may change a disk. -/
def Change (α : Type) : Type :=
  Disk → Telling α × Disk

namespace Change

instance : Monad Change where
  pure a := fun d => (pure a, d)
  bind c f := fun d =>
    match c d with
    | (⟨es, .error s⟩, d') => (⟨es, .error s⟩, d')
    | (⟨es, .ok a⟩, d') =>
      let r := f a d'
      (⟨es ++ r.1.events, r.1.result⟩, r.2)

def look (f : Disk → Telling α) : Change α :=
  fun d => (f d, d)

def tell (e : Event) : Change Unit :=
  look fun _ => Telling.tell e

@[simp] theorem pure_apply (a : α) (d : Disk) : (pure a : Change α) d = (pure a, d) := rfl

@[simp] theorem look_apply (f : Disk → Telling α) (d : Disk) : look f d = (f d, d) := rfl

theorem bind_result (c : Change α) (f : α → Change β) (d : Disk) :
    ((c >>= f) d).1.result = (c d).1.result.bind fun a => (f a (c d).2).1.result := by
  show (match c d with
    | (⟨es, .error s⟩, d') => ((⟨es, .error s⟩, d') : Telling β × Disk)
    | (⟨es, .ok a⟩, d') => (⟨es ++ (f a d').1.events, (f a d').1.result⟩, (f a d').2)).1.result = _
  rcases c d with ⟨⟨es, s | a⟩, d'⟩ <;> rfl

/-- A step that stops leaves its disk; else the next step leaves one. -/
theorem bind_disk (c : Change α) (f : α → Change β) (d : Disk) :
    ((c >>= f) d).2 = match (c d).1.result with
      | .ok a => (f a (c d).2).2
      | .error _ => (c d).2 := by
  show (match c d with
    | (⟨es, .error s⟩, d') => ((⟨es, .error s⟩, d') : Telling β × Disk)
    | (⟨es, .ok a⟩, d') => (⟨es ++ (f a d').1.events, (f a d').1.result⟩, (f a d').2)).2 = _
  rcases c d with ⟨⟨es, s | a⟩, d'⟩ <;> rfl

end Change

end TableRoster
