import TableRoster.Journal.Event

/-! # Results with events

A step of a run tells events and then has a result, or stops. Events told before a stop stay. -/

namespace TableRoster

/-- The result of a step, and the events it told, in order. -/
structure Telling (α : Type) where
  events : List Event
  result : Except Stop α

namespace Telling

instance : Monad Telling where
  pure a := ⟨[], .ok a⟩
  bind t f :=
    match t.result with
    | .error s => ⟨t.events, .error s⟩
    | .ok a =>
      let u := f a
      ⟨t.events ++ u.events, u.result⟩

def tell (e : Event) : Telling Unit :=
  ⟨[e], .ok ()⟩

def fail (f : Failure) : Telling α :=
  ⟨[], .error (.failure f)⟩

def crash (c : Crash) : Telling α :=
  ⟨[], .error (.crash c)⟩

def ofCrash : Except Crash α → Telling α
  | .ok a => pure a
  | .error c => crash c

def ofFailure : Except Failure α → Telling α
  | .ok a => pure a
  | .error f => fail f

@[simp] theorem pure_events (a : α) : (pure a : Telling α).events = [] := rfl

@[simp] theorem pure_result (a : α) : (pure a : Telling α).result = .ok a := rfl

theorem bind_result (t : Telling α) (f : α → Telling β) :
    (t >>= f).result = t.result.bind fun a => (f a).result := by
  show (match t.result with
    | .error s => (⟨t.events, .error s⟩ : Telling β)
    | .ok a => ⟨t.events ++ (f a).events, (f a).result⟩).result = _
  cases t.result <;> rfl

theorem bind_eq_ok {t : Telling α} {f : α → Telling β} {b : β} (h : (t >>= f).result = .ok b) :
    ∃ a, t.result = .ok a ∧ (f a).result = .ok b := by
  rw [bind_result] at h
  cases ht : t.result with
  | error e => rw [ht] at h; cases h
  | ok a => exact ⟨a, rfl, by rwa [ht] at h⟩

theorem ofCrash_eq_ok {r : Except Crash α} {a : α} (h : (ofCrash r).result = .ok a) : r = .ok a := by
  cases r with
  | error c => cases h
  | ok b => exact congrArg _ (Except.ok.inj h)

end Telling

/-! ## Results that are evaluated -/

theorem exists_ok_of_map {ε α β : Type} {r : Except ε α} {f : α → β} {b : β}
    (h : r.toOption.map f = some b) : ∃ a, r = .ok a ∧ f a = b := by
  cases r with
  | error e => cases h
  | ok a => exact ⟨a, rfl, by simpa [Except.toOption] using h⟩

theorem eq_ok_of_toOption {ε α : Type} {r : Except ε α} {a : α} (h : r.toOption = some a) : r = .ok a := by
  cases r with
  | error e => cases h
  | ok b => rw [Option.some.inj h]

end TableRoster
