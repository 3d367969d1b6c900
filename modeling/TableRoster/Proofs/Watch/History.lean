import Mathlib.Data.Set.Card
import TableRoster.Proofs.Watch.Times

/-! # Runs of a watcher

A watcher is looked at through the steps it took. It regenerates on its own exactly when it sees what it
saw last, and some change, with no regeneration behind it, is old enough. -/

namespace TableRoster

/-- A step of a watcher, on the disk that it finds: a check at a time, or a regeneration now. -/
inductive Moment
  | check (now : Float) (disk : Disk)
  | regenerate (disk : Disk)

namespace Moment

/-- What a step sees of the modules. -/
def sees (s : Settings) : Moment → Option Snapshot
  | .check _ d => (Snapshot.take s d).result.toOption
  | .regenerate _ => none

end Moment

namespace Watcher

variable {w w₀ : Watcher} {f : Nat → Change Regeneration} {m : Moment} {ms : List Moment}
  {now : Float} {d : Disk} {current : Snapshot} {i j c : Nat}

def step (w : Watcher) (f : Nat → Change Regeneration) : Moment → Turn (Option Regeneration)
  | .check now d => w.check f now d
  | .regenerate d => w.runOnce f d

/-- The watcher after a row of steps. -/
def after (w : Watcher) (f : Nat → Change Regeneration) (ms : List Moment) : Watcher :=
  ms.foldl (fun w m => (w.step f m).watcher) w

/-- A step calls the regeneration: it matters which one it is. -/
def Calls (w : Watcher) (m : Moment) : Prop :=
  ∃ f g, w.step f m ≠ w.step g m

/-! ## One step -/

theorem start_eq {s : Settings} {interval quiet : Float}
    (h : (Watcher.start s interval quiet d).result = .ok w) : ∃ seen,
      (Snapshot.take s d).result = .ok seen ∧ w = ⟨s, interval, quiet, 0, seen, false, 0, false⟩ := by
  obtain ⟨seen, htake, h⟩ := Telling.bind_eq_ok h
  cases h
  exact ⟨seen, htake, rfl⟩

theorem runOnce_watcher (w : Watcher) (f : Nat → Change Regeneration) (d : Disk) :
    (w.runOnce f d).watcher = { w with dirty := false, runs := w.runs + 1 } := by
  unfold runOnce
  dsimp only
  split <;> rfl

theorem runOnce_result (w : Watcher) (f : Nat → Change Regeneration) (d : Disk) :
    (w.runOnce f d).telling.result = (f (w.runs + 1) d).1.result.map some := by
  unfold runOnce
  dsimp only
  split <;> simp_all [Except.map]

theorem runOnce_disk (w : Watcher) (f : Nat → Change Regeneration) (d : Disk) :
    (w.runOnce f d).disk = (f (w.runs + 1) d).2 := by
  unfold runOnce
  dsimp only
  split <;> simp_all

theorem check_crashed {es : List Event} {e : Stop}
    (h : Snapshot.take w.settings d = ⟨es, .error e⟩) (f : Nat → Change Regeneration) (now : Float) :
    w.check f now d = ⟨⟨es, .error e⟩, w, d⟩ := by
  simp [check, h]

theorem check_changed {es : List Event} (h : Snapshot.take w.settings d = ⟨es, .ok current⟩)
    (hc : current.same w.seen = false) (f : Nat → Change Regeneration) (now : Float) :
    w.check f now d =
      ⟨⟨es ++ [.changed (((Snapshot.changed w.seen current).take namedChanges).map (·.name))], .ok none⟩,
        { w with seen := current, dirty := true, lastChange := now }, d⟩ := by
  simp [check, h, observe, hc]

theorem check_waits {es : List Event} (h : Snapshot.take w.settings d = ⟨es, .ok current⟩)
    (hc : current.same w.seen = true) (hw : w.dirty = false ∨ now - w.lastChange < w.quiet)
    (f : Nat → Change Regeneration) : w.check f now d = ⟨⟨es, .ok none⟩, w, d⟩ := by
  simp [check, h, observe, hc, hw]

theorem check_runs {es : List Event} (h : Snapshot.take w.settings d = ⟨es, .ok current⟩)
    (hc : current.same w.seen = true) (hd : w.dirty = true) (hq : ¬ now - w.lastChange < w.quiet)
    (f : Nat → Change Regeneration) : w.check f now d =
      ⟨⟨es ++ (w.runOnce f d).telling.events, (w.runOnce f d).telling.result⟩,
        (w.runOnce f d).watcher, (w.runOnce f d).disk⟩ := by
  simp [check, h, observe, hc, hd, hq]

/-- A check sees what was seen last, and something has changed, but not for a while. -/
def IsDue (w : Watcher) (now : Float) (d : Disk) : Prop :=
  ∃ es current, Snapshot.take w.settings d = ⟨es, .ok current⟩ ∧ current.same w.seen = true
    ∧ w.dirty = true ∧ ¬ now - w.lastChange < w.quiet

theorem waits_of_not_due {es : List Event} (h : ¬ w.IsDue now d)
    (htake : Snapshot.take w.settings d = ⟨es, .ok current⟩) (hc : current.same w.seen = true) :
    w.dirty = false ∨ now - w.lastChange < w.quiet := by
  by_contra hn
  rw [not_or, Bool.not_eq_false] at hn
  exact h ⟨es, current, htake, hc, hn⟩

/-- A check that is not due changes nothing but what was seen. -/
theorem check_of_not_due (h : ¬ w.IsDue now d) : ∃ turn, (∀ f, w.check f now d = turn)
    ∧ turn.watcher.runs = w.runs ∧ turn.disk = d ∧ ∀ r, turn.telling.result ≠ .ok (some r) := by
  rcases htake : Snapshot.take w.settings d with ⟨es, e | current⟩
  · exact ⟨_, fun f => check_crashed htake f now, rfl, rfl, nofun⟩
  · cases hc : current.same w.seen with
    | false => exact ⟨_, fun f => check_changed htake hc f now, rfl, rfl, nofun⟩
    | true => exact ⟨_, check_waits htake hc (waits_of_not_due h htake hc), rfl, rfl, nofun⟩

theorem runOnce_ne (w : Watcher) (d : Disk) :
    ∃ f g, (w.runOnce f d).telling.result ≠ (w.runOnce g d).telling.result :=
  ⟨fun _ => pure (.done none), fun _ => pure (.failed ""), nofun⟩

theorem calls_check_iff : Calls w (.check now d) ↔ w.IsDue now d := by
  constructor
  · rintro ⟨f, g, hne⟩
    by_contra hn
    obtain ⟨turn, hturn, -⟩ := check_of_not_due hn
    exact hne ((hturn f).trans (hturn g).symm)
  · rintro ⟨es, current, htake, hc, hd, hq⟩
    obtain ⟨f, g, hne⟩ := runOnce_ne w d
    refine ⟨f, g, fun he => hne ?_⟩
    simp only [step, check_runs htake hc hd hq] at he
    exact congrArg (·.telling.result) he

theorem calls_regenerate (w : Watcher) (d : Disk) : Calls w (.regenerate d) := by
  obtain ⟨f, g, hne⟩ := runOnce_ne w d
  exact ⟨f, g, fun he => hne (congrArg (·.telling.result) he)⟩

/-! ## Many steps -/

theorem after_append (f : Nat → Change Regeneration) (ms : List Moment) (m : Moment) :
    w.after f (ms ++ [m]) = ((w.after f ms).step f m).watcher := by
  simp [after]

/-- What the last check saw, or else what was there at the start. -/
def lastSeen (w₀ : Watcher) (ms : List Moment) : Snapshot :=
  (ms.filterMap (·.sees w₀.settings)).getLast?.getD w₀.seen

theorem lastSeen_append (w₀ : Watcher) (ms : List Moment) (m : Moment) :
    lastSeen w₀ (ms ++ [m]) = (m.sees w₀.settings).getD (lastSeen w₀ ms) := by
  cases h : m.sees w₀.settings <;> simp [lastSeen, List.filterMap_append, h]

/-- A step has a property that depends on the steps before it. -/
def At (P : List Moment → Moment → Prop) (ms : List Moment) (i : Nat) : Prop :=
  ∃ m, ms[i]? = some m ∧ P (ms.take i) m

theorem At.lt {P : List Moment → Moment → Prop} (h : At P ms i) : i < ms.length := by
  obtain ⟨m, hm, -⟩ := h
  exact (List.getElem?_eq_some_iff.1 hm).1

theorem at_append {P : List Moment → Moment → Prop} :
    At P (ms ++ [m]) i ↔ At P ms i ∨ i = ms.length ∧ P ms m := by
  unfold At
  rcases Nat.lt_trichotomy i ms.length with hi | rfl | hi
  · simp [List.getElem?_append_left hi, List.take_append_of_le_length hi.le, hi.ne]
  · simp
  · have hnone : (ms ++ [m])[i]? = none := by simp; omega
    have hnone' : ms[i]? = none := by simp; omega
    simp [hnone, hnone', hi.ne']

/-- A step calls the regeneration. -/
def CallsAt (w₀ : Watcher) (f : Nat → Change Regeneration) : List Moment → Nat → Prop :=
  At fun before m => Calls (w₀.after f before) m

/-- A check at a time sees something else than the one before it. -/
def ChangedAt (w₀ : Watcher) (now : Float) : List Moment → Nat → Prop :=
  At fun before m => ∃ d current, m = .check now d
    ∧ (Snapshot.take w₀.settings d).result = .ok current ∧ current.same (lastSeen w₀ before) = false

/-- A change with no regeneration behind it. -/
def Pending (w₀ : Watcher) (f : Nat → Change Regeneration) (ms : List Moment) (c : Nat) (now : Float) :
    Prop :=
  ChangedAt w₀ now ms c ∧ ∀ j > c, ¬ CallsAt w₀ f ms j

/-- The last of these changes. -/
def LastPending (w₀ : Watcher) (f : Nat → Change Regeneration) (ms : List Moment) (c : Nat)
    (now : Float) : Prop :=
  Pending w₀ f ms c now ∧ ∀ c' now', Pending w₀ f ms c' now' → c' ≤ c

theorem LastPending.unique {now' : Float} {c' : Nat} (h : LastPending w₀ f ms c now)
    (h' : LastPending w₀ f ms c' now') : now = now' := by
  obtain rfl : c = c' := Nat.le_antisymm (h'.2 _ _ h.1) (h.2 _ _ h'.1)
  obtain ⟨⟨⟨m, hm, d, current, hcheck, -⟩, -⟩, -⟩ := h
  obtain ⟨⟨⟨m', hm', d', current', hcheck', -⟩, -⟩, -⟩ := h'
  subst hcheck hcheck'
  exact (Moment.check.inj (Option.some.inj (hm.symm.trans hm'))).1

/-- What was pending stays so unless a step regenerates; a step may add a change. -/
theorem pending_append : Pending w₀ f (ms ++ [m]) c now ↔
    Pending w₀ f ms c now ∧ ¬ Calls (w₀.after f ms) m
      ∨ c = ms.length ∧ ∃ d current, m = .check now d
        ∧ (Snapshot.take w₀.settings d).result = .ok current
        ∧ current.same (lastSeen w₀ ms) = false := by
  simp only [Pending, ChangedAt, CallsAt, at_append]
  constructor
  · rintro ⟨hc | hc, hcalls⟩
    · refine .inl ⟨⟨hc, fun j hj hat => hcalls j hj (.inl hat)⟩, fun hm => ?_⟩
      exact hcalls ms.length hc.lt (.inr ⟨rfl, hm⟩)
    · exact .inr hc
  · rintro (⟨⟨hc, hcalls⟩, hm⟩ | ⟨rfl, hc⟩)
    · exact ⟨.inl hc, fun j hj hat => hat.elim (hcalls j hj) fun h => hm h.2⟩
    · exact ⟨.inr ⟨rfl, hc⟩, fun j hj hat => hat.elim (fun h => absurd h.lt (by omega)) fun h => by omega⟩

/-- How a watcher goes by the steps it took. -/
structure Follows (w₀ : Watcher) (f : Nat → Change Regeneration) (ms : List Moment) (w : Watcher) :
    Prop where
  settings : w.settings = w₀.settings
  quiet : w.quiet = w₀.quiet
  seen : ∀ s : Snapshot, s.same w.seen = s.same (lastSeen w₀ ms)
  dirty : w.dirty = true → ∃ c, LastPending w₀ f ms c w.lastChange
  clean : w.dirty = false → ∀ c now, ¬ Pending w₀ f ms c now
  runs : w.runs = {i | CallsAt w₀ f ms i}.ncard

/-! ## What every step keeps -/

theorem calls_append_of_calls (h : Calls (w₀.after f ms) m) :
    {i | CallsAt w₀ f (ms ++ [m]) i}.ncard = {i | CallsAt w₀ f ms i}.ncard + 1 := by
  have hset : {i | CallsAt w₀ f (ms ++ [m]) i} = insert ms.length {i | CallsAt w₀ f ms i} := by
    ext i
    simp [CallsAt, at_append, h, or_comm]
  have hfinite : {i | CallsAt w₀ f ms i}.Finite := (Set.finite_lt_nat ms.length).subset
    fun i (hi : CallsAt w₀ f ms i) => At.lt hi
  have hnew : ms.length ∉ {i | CallsAt w₀ f ms i} := fun hi : CallsAt w₀ f ms ms.length =>
    Nat.lt_irrefl _ (At.lt hi)
  rw [hset, Set.ncard_insert_of_notMem hnew hfinite]

theorem calls_append_of_not_calls (h : ¬ Calls (w₀.after f ms) m) :
    {i | CallsAt w₀ f (ms ++ [m]) i} = {i | CallsAt w₀ f ms i} := by
  ext i
  simp [CallsAt, at_append, h]

namespace Follows

/-- A step that shows nothing new adds no change. -/
theorem pending_append_iff (hsees : ∀ x, m.sees w₀.settings = some x → x.same (lastSeen w₀ ms) = true) :
    Pending w₀ f (ms ++ [m]) c now ↔ Pending w₀ f ms c now ∧ ¬ Calls (w₀.after f ms) m := by
  rw [pending_append, or_iff_left]
  rintro ⟨-, d, current, rfl, htake, hc⟩
  have := hsees current (by simp [Moment.sees, htake, Except.toOption])
  simp [hc] at this

theorem seen_append (h : Follows w₀ f ms w)
    (hsees : ∀ x, m.sees w₀.settings = some x → x.same (lastSeen w₀ ms) = true) (x : Snapshot) :
    x.same w.seen = x.same (lastSeen w₀ (ms ++ [m])) := by
  rw [lastSeen_append, h.seen]
  cases hm : m.sees w₀.settings with
  | none => rfl
  | some current => exact (Snapshot.same_congr (hsees current hm) x).symm

theorem called (h : Follows w₀ f ms (w₀.after f ms)) (hm : Calls (w₀.after f ms) m)
    (hsees : ∀ x, m.sees w₀.settings = some x → x.same (lastSeen w₀ ms) = true) :
    Follows w₀ f (ms ++ [m])
      { w₀.after f ms with dirty := false, runs := (w₀.after f ms).runs + 1 } where
  settings := h.settings
  quiet := h.quiet
  seen := h.seen_append hsees
  dirty := nofun
  clean _ c now hp := ((pending_append_iff hsees).1 hp).2 hm
  runs := by rw [calls_append_of_calls hm, h.runs]

theorem idle (h : Follows w₀ f ms (w₀.after f ms)) (hm : ¬ Calls (w₀.after f ms) m)
    (hsees : ∀ x, m.sees w₀.settings = some x → x.same (lastSeen w₀ ms) = true) :
    Follows w₀ f (ms ++ [m]) (w₀.after f ms) where
  settings := h.settings
  quiet := h.quiet
  seen := h.seen_append hsees
  dirty hd := by
    obtain ⟨c, hp, hlast⟩ := h.dirty hd
    exact ⟨c, (pending_append_iff hsees).2 ⟨hp, hm⟩,
      fun c' now' hp' => hlast c' now' ((pending_append_iff hsees).1 hp').1⟩
  clean hd c now hp := h.clean hd c now ((pending_append_iff hsees).1 hp).1
  runs := by rw [calls_append_of_not_calls hm, h.runs]

theorem noted (h : Follows w₀ f ms (w₀.after f ms)) (hm : ¬ Calls (w₀.after f ms) (.check now d))
    (htake : (Snapshot.take w₀.settings d).result = .ok current)
    (hc : current.same (lastSeen w₀ ms) = false) :
    Follows w₀ f (ms ++ [.check now d])
      { w₀.after f ms with seen := current, dirty := true, lastChange := now } where
  settings := h.settings
  quiet := h.quiet
  seen x := by simp [lastSeen_append, Moment.sees, htake, Except.toOption]
  dirty _ := by
    refine ⟨ms.length, pending_append.2 (.inr ⟨rfl, d, current, rfl, htake, hc⟩), ?_⟩
    intro c' now' hp
    have := hp.1.lt
    simp only [List.length_append, List.length_singleton] at this
    omega
  clean := nofun
  runs := by rw [calls_append_of_not_calls hm, h.runs]

/-- Every step keeps how a watcher goes by its steps. -/
theorem step (h : Follows w₀ f ms (w₀.after f ms)) (m : Moment) :
    Follows w₀ f (ms ++ [m]) (w₀.after f (ms ++ [m])) := by
  rw [after_append]
  cases m with
  | regenerate d =>
    simp only [Watcher.step, runOnce_watcher]
    exact h.called (calls_regenerate _ d) nofun
  | check now d =>
    have hsees : ∀ {es current}, Snapshot.take (w₀.after f ms).settings d = ⟨es, .ok current⟩ →
        current.same (w₀.after f ms).seen = true →
          ∀ x, (Moment.check now d).sees w₀.settings = some x → x.same (lastSeen w₀ ms) = true := by
      intro es current htake hc x hx
      rw [h.settings] at htake
      simp only [Moment.sees, htake, Except.toOption, Option.some.injEq] at hx
      rw [← hx, ← h.seen, hc]
    by_cases hdue : (w₀.after f ms).IsDue now d
    · obtain ⟨es, current, htake, hc, hd, hq⟩ := hdue
      simp only [Watcher.step, check_runs htake hc hd hq, runOnce_watcher]
      exact h.called (calls_check_iff.2 ⟨es, current, htake, hc, hd, hq⟩) (hsees htake hc)
    · have hm := mt calls_check_iff.1 hdue
      rcases htake : Snapshot.take (w₀.after f ms).settings d with ⟨es, e | current⟩
      · simp only [Watcher.step, check_crashed htake]
        rw [h.settings] at htake
        exact h.idle hm (by simp [Moment.sees, htake, Except.toOption])
      · cases hc : current.same (w₀.after f ms).seen with
        | true =>
          simp only [Watcher.step, check_waits htake hc (waits_of_not_due hdue htake hc)]
          exact h.idle hm (hsees htake hc)
        | false =>
          simp only [Watcher.step, check_changed htake hc]
          rw [h.settings] at htake
          rw [h.seen] at hc
          exact h.noted hm (by rw [htake]) hc

/-- Every watcher goes by the steps it took since it was started. -/
theorem of_start {s : Settings} {interval quiet : Float} {d₀ : Disk}
    (h : (Watcher.start s interval quiet d₀).result = .ok w₀) (f : Nat → Change Regeneration)
    (ms : List Moment) :
    w₀.settings = s ∧ w₀.quiet = quiet ∧ Follows w₀ f ms (w₀.after f ms) := by
  obtain ⟨seen, -, rfl⟩ := start_eq h
  refine ⟨rfl, rfl, ?_⟩
  induction ms using List.reverseRecOn with
  | nil =>
    have hnone : ∀ i, ¬ CallsAt ⟨s, interval, quiet, 0, seen, false, 0, false⟩ f [] i := fun i hi =>
      absurd (At.lt hi) (Nat.not_lt_zero i)
    exact ⟨rfl, rfl, fun _ => rfl, nofun, fun _ c now hp => absurd hp.1.lt (Nat.not_lt_zero c),
      by simp [after, hnone]⟩
  | append_singleton ms m ih => exact ih.step m

theorem isDue_iff (h : Follows w₀ f ms w) : w.IsDue now d ↔
    ∃ current, (Snapshot.take w₀.settings d).result = .ok current
      ∧ current.same (lastSeen w₀ ms) = true
      ∧ ∃ c before, LastPending w₀ f ms c before ∧ ¬ now - before < w₀.quiet := by
  unfold IsDue
  rw [h.settings, h.quiet]
  constructor
  · rintro ⟨es, current, htake, hc, hd, hq⟩
    obtain ⟨c, hp⟩ := h.dirty hd
    exact ⟨current, by rw [htake], h.seen current ▸ hc, c, w.lastChange, hp, hq⟩
  · rintro ⟨current, htake, hc, c, before, hp, hq⟩
    have hd : w.dirty = true := by
      by_contra hn
      exact h.clean (Bool.not_eq_true _ ▸ hn) c before hp.1
    obtain ⟨c', hp'⟩ := h.dirty hd
    rcases hS : Snapshot.take w₀.settings d with ⟨es, r⟩
    rw [hS] at htake
    obtain rfl : r = .ok current := htake
    refine ⟨es, current, rfl, ?_, hd, ?_⟩
    · rw [h.seen, hc]
    · rwa [hp'.unique hp]

end Follows

/-! ## When it regenerates -/

/-- A check regenerates exactly if it sees what was seen last, and if the last change with no
regeneration behind it is as old as the quiet time; an age that is no number counts as old. There were
as many runs as regenerations. A check is done only if its regeneration is, and one that does not
regenerate is no run. -/
theorem calls_iff_pending {s : Settings} {interval quiet : Float} {d₀ : Disk}
    (h : (Watcher.start s interval quiet d₀).result = .ok w₀) (f : Nat → Change Regeneration)
    (ms : List Moment) (now : Float) (d : Disk) :
    (Calls (w₀.after f ms) (.check now d) ↔ ∃ current, (Snapshot.take s d).result = .ok current
        ∧ current.same (lastSeen w₀ ms) = true
        ∧ ∃ c before, LastPending w₀ f ms c before
          ∧ (quiet ≤ now - before ∨ (now - before).isNaN = true ∨ quiet.isNaN = true))
      ∧ (w₀.after f ms).runs = {i | CallsAt w₀ f ms i}.ncard
      ∧ (∀ r, ((w₀.after f ms).check f now d).telling.result = .ok r → Regeneration.isDone r = true →
          Calls (w₀.after f ms) (.check now d)
            ∧ ∃ g, (f ((w₀.after f ms).runs + 1) d).1.result = .ok (.done g))
      ∧ (¬ Calls (w₀.after f ms) (.check now d) →
          ((w₀.after f ms).check f now d).watcher.runs = (w₀.after f ms).runs) := by
  obtain ⟨rfl, rfl, hfollows⟩ := Follows.of_start h f ms
  refine ⟨?_, hfollows.runs, fun r hr hdone => ?_, fun hn => ?_⟩
  · rw [calls_check_iff, hfollows.isDue_iff]
    simp only [Times.not_lt_iff]
  · by_cases hdue : (w₀.after f ms).IsDue now d
    · refine ⟨calls_check_iff.2 hdue, ?_⟩
      obtain ⟨es, current, htake, hc, hd, hq⟩ := hdue
      simp only [check_runs htake hc hd hq, runOnce_result] at hr
      cases hf : (f ((w₀.after f ms).runs + 1) d).1.result with
      | error e => simp [hf, Except.map] at hr
      | ok x =>
        rw [hf] at hr
        cases hr
        cases x with
        | done g => exact ⟨g, rfl⟩
        | failed reason => cases hdone
    · obtain ⟨turn, hturn, -, -, hresult⟩ := check_of_not_due hdue
      rw [hturn f] at hr
      cases r with
      | none => cases hdone
      | some r => exact absurd hr (hresult r)
  · obtain ⟨turn, hturn, hruns, -⟩ := check_of_not_due (mt calls_check_iff.2 hn)
    rw [hturn f, hruns]

/-- A disk with one module, which was changed at a time. -/
def editedDisk (modified : Int) : Disk :=
  ⟨[(["ws"], .folder), (["ws", "schema"], .folder),
    (["ws", "schema", "a.ts"], .file "".toUTF8 modified)], ["ws"], 0⟩

def editedSettings : Settings :=
  ⟨⟨.slash, ["ws", "schema"]⟩, ⟨.slash, ["ws", "out.ts"]⟩, [], [], [], true, true, [], "pgTable(", "db", false⟩

/-- A regeneration that fails the first time. -/
def secondTime (run : Nat) : Change Regeneration :=
  if run = 1 then pure (.failed "") else pure (.done none)

/-- After a change and a regeneration that fails, a further change makes the next check that is late
enough regenerate. -/
theorem calls_iff_pending_edit :
    ∃ w₀, (Watcher.start editedSettings 1 0.5 (editedDisk 0)).result = .ok w₀
      ∧ Calls (w₀.after secondTime [.regenerate (editedDisk 0), .check 2 (editedDisk 1000)])
        (.check 2.5 (editedDisk 1000))
      ∧ (∃ c before, LastPending w₀ secondTime
          [.regenerate (editedDisk 0), .check 2 (editedDisk 1000)] c before)
      ∧ ∃ g, (secondTime ((w₀.after secondTime
          [.regenerate (editedDisk 0), .check 2 (editedDisk 1000)]).runs + 1)
            (editedDisk 1000)).1.result = .ok (.done g) := by
  have hdone : (Watcher.start editedSettings 1 0.5 (editedDisk 0)).result.toOption.map (fun w₀ =>
      ((w₀.after secondTime [.regenerate (editedDisk 0), .check 2 (editedDisk 1000)]).check secondTime
        2.5 (editedDisk 1000)).telling.result.toOption) = some (some (some (.done none))) := by
    decide +kernel
  cases hstart : (Watcher.start editedSettings 1 0.5 (editedDisk 0)).result with
  | error e =>
    rw [hstart] at hdone
    cases hdone
  | ok w₀ =>
    rw [hstart] at hdone
    obtain ⟨hcalls, -, hresult, -⟩ := calls_iff_pending hstart secondTime
      [.regenerate (editedDisk 0), .check 2 (editedDisk 1000)] 2.5 (editedDisk 1000)
    have hok : ((w₀.after secondTime [.regenerate (editedDisk 0), .check 2 (editedDisk 1000)]).check
        secondTime 2.5 (editedDisk 1000)).telling.result = .ok (some (.done none)) := by
      revert hdone
      simp only [Except.toOption, Option.map_some, Option.some.injEq]
      split <;> simp_all
    obtain ⟨hc, hg⟩ := hresult _ hok rfl
    obtain ⟨-, -, -, c, before, hp, -⟩ := hcalls.1 hc
    exact ⟨w₀, rfl, hc, ⟨c, before, hp⟩, hg⟩

end Watcher

end TableRoster
