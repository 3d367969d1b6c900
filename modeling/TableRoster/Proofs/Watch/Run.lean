import TableRoster.Proofs.Validation
import TableRoster.Proofs.Watch.Edits
import TableRoster.Proofs.Watch.History
import TableRoster.Proofs.Watch.Rounding

/-! # A watcher among edits

Modules are edited while a watcher is started and checks them. An edit after the start is seen by the
next check, and a later check, when nothing was edited for a while, leaves a valid output. An edit
between the first generation and the start is lost. -/

namespace TableRoster.Watcher

open Disk

/-- What happens to modules that are watched. -/
inductive Happening
  | edit
  | start
  | check (now : Float)

/-- A run of a watcher: what happened, the latest first, the disks that were there, the latest first, and
the watcher once it is started. There are edits between any two steps, and between the look at the modules
and the regeneration that it leads to; every regeneration succeeds. -/
inductive Run (s : Settings) (say : Origin → String) (interval quiet : Float) :
    List Happening → List Disk → Option Watcher → Prop
  | generate {d t g} : IsTree d → ¬ Output.IsLink d s.outputFile →
      (generate s t d).1.result = .ok g → Scan.LinksStay s d (generate s t d).2 →
      Run s say interval quiet [] [(generate s t d).2, d] none
  | edit {hs ds ds' w} : Run s say interval quiet hs ds w → Edit s ds ds' →
      Run s say interval quiet (.edit :: hs) ds' w
  | start {hs d past w} : Run s say interval quiet hs (d :: past) none →
      (Watcher.start s interval quiet d).result = .ok w →
      Run s say interval quiet (.start :: hs) (d :: past) (some w)
  | idle {hs d past w f now} : Run s say interval quiet hs (d :: past) (some w) →
      (w.check f now d).telling.result = .ok none →
      Run s say interval quiet (.check now :: hs) (d :: past) (some (w.check f now d).watcher)
  | regenerate {hs d past w now n e past' t g turn} :
      Run s say interval quiet hs (d :: past) (some w) → Edits s n (d :: past) (e :: past') →
      turn = w.check (fun _ _ => regeneration say (generate s t) e) now d →
      turn.telling.result = .ok (some (.done (some g))) →
      Scan.LinksStay s e (generate s t e).2 →
      Run s say interval quiet (List.replicate n .edit ++ .check now :: hs) (turn.disk :: e :: past')
        (some turn.watcher)

/-- The output is valid at any time, if there is a table. -/
def Valid (s : Settings) (d : Disk) : Prop :=
  ∀ t, (Collection.aggregate s s.outputFolder t d).result ≠ .ok none →
    (validate s t d).result = .ok .inSync

variable {s : Settings} {say : Origin → String} {interval quiet now A B : Float}
  {hs before : List Happening} {checks : List Float} {d e : Disk} {ds past : List Disk} {files : List Path} {w : Watcher}
  {f : Nat → Change Regeneration} {t : Timestamp} {g : Generated}

/-! ## One check -/

/-- A watcher on disks: what it saw was there once. -/
structure Watches (s : Settings) (quiet : Float) (files : List Path) (ds : List Disk) (w : Watcher) :
    Prop where
  settings : w.settings = s
  quiet : w.quiet = quiet
  seen : ∃ d ∈ ds, w.seen = Snapshot.timesOf d files

/-- What a check without a regeneration leaves: it saw something new, or it had nothing to do, or it was
too early. -/
theorem idle_cases (hw : Watches s quiet files ds w) (hd : Sound s files d)
    (h : (w.check f now d).telling.result = .ok none) :
    (Snapshot.timesOf d files).same w.seen = false
        ∧ (w.check f now d).watcher
          = { w with seen := Snapshot.timesOf d files, dirty := true, lastChange := now }
      ∨ (Snapshot.timesOf d files).same w.seen = true ∧ (w.check f now d).watcher = w
        ∧ (w.dirty = false ∨ now - w.lastChange < quiet) := by
  obtain ⟨es, htake⟩ := Snapshot.take_of_modules hd.modules
  rw [← hw.settings] at htake
  cases hc : (Snapshot.timesOf d files).same w.seen with
  | false => exact .inl ⟨rfl, by rw [check_changed htake hc]⟩
  | true =>
    by_cases hdue : w.IsDue now d
    · obtain ⟨es', current, htake', hc', hdirty, hq⟩ := hdue
      rw [check_runs htake' hc' hdirty hq] at h
      simp only [runOnce_result] at h
      cases hf : (f (w.runs + 1) d).1.result <;> simp [hf, Except.map] at h
    · have hwait := waits_of_not_due hdue htake hc
      refine .inr ⟨rfl, by rw [check_waits htake hc hwait], ?_⟩
      rw [← hw.quiet]
      exact hwait

/-- A check that is late enough does what its regeneration does. -/
theorem check_regenerates {es : List Event} {current : Snapshot}
    (h : Snapshot.take w.settings d = ⟨es, .ok current⟩) (hc : current.same w.seen = true)
    (hdirty : w.dirty = true) (hq : ¬ now - w.lastChange < w.quiet) (f : Nat → Change Regeneration) :
    (w.check f now d).telling.result = (f (w.runs + 1) d).1.result.map some
      ∧ (w.check f now d).watcher = { w with dirty := false, runs := w.runs + 1 }
      ∧ (w.check f now d).disk = (f (w.runs + 1) d).2 := by
  rw [check_runs h hc hdirty hq]
  exact ⟨runOnce_result w f d, runOnce_watcher w f d, runOnce_disk w f d⟩

/-- A check with a regeneration saw what it saw before, and leaves nothing to do. -/
theorem regenerate_eq {r : Regeneration} (hw : Watches s quiet files ds w) (hd : Sound s files d)
    (h : (w.check f now d).telling.result = .ok (some r)) :
    (Snapshot.timesOf d files).same w.seen = true
      ∧ (w.check f now d).watcher = { w with dirty := false, runs := w.runs + 1 }
      ∧ (f (w.runs + 1) d).1.result = .ok r ∧ (w.check f now d).disk = (f (w.runs + 1) d).2 := by
  obtain ⟨es, htake⟩ := Snapshot.take_of_modules hd.modules
  rw [← hw.settings] at htake
  by_cases hdue : w.IsDue now d
  · obtain ⟨es', current, htake', hc, hdirty, hq⟩ := hdue
    obtain ⟨rfl, rfl⟩ : es' = es ∧ current = Snapshot.timesOf d files := by
      simpa using htake'.symm.trans htake
    obtain ⟨hresult, hwatcher, hdisk⟩ := check_regenerates htake hc hdirty hq f
    refine ⟨hc, hwatcher, ?_, hdisk⟩
    rw [hresult] at h
    cases hf : (f (w.runs + 1) d).1.result with
    | error e => simp [hf, Except.map] at h
    | ok r' =>
      rw [hf] at h
      cases h
      rfl
  · obtain ⟨turn, hturn, -, -, hresult⟩ := check_of_not_due hdue
    rw [hturn f] at h
    exact absurd h (hresult r)

theorem regeneration_disk {c : Change Generated} : (regeneration say c d).2 = (c d).2 := by
  unfold regeneration
  rcases c d with ⟨⟨es, (f | c) | g⟩, d'⟩ <;> rfl

theorem regeneration_done {c : Change Generated} :
    (regeneration say c d).1.result = .ok (.done (some g)) ↔ (c d).1.result = .ok g := by
  unfold regeneration
  rcases c d with ⟨⟨es, (f | c) | g'⟩, d'⟩ <;> simp

theorem valid_of_generate (hd : Sound s files d) (h : (generate s t d).1.result = .ok g)
    (hl : Scan.LinksStay s d (generate s t d).2) : Valid s (generate s t d).2 := by
  intro t' hsome
  obtain ⟨ha, -, -⟩ | ⟨a, previous, -, -, -, rfl⟩ := generate_cases h
  · rw [(generate_none ha).2, Collection.aggregate_time t, ha] at hsome
    exact absurd rfl hsome
  · exact validate_after_generate hd.tree hd.link h rfl hl t'

/-! ## What a run keeps -/

/-- The modules are as a check saw them that noted a change at a time; what is not to be regenerated is
valid. -/
structure Looked (s : Settings) (files : List Path) (A : Float) (d : Disk) (w : Watcher) : Prop where
  seen : (Snapshot.timesOf d files).same w.seen = true
  noted : w.dirty = true → w.lastChange = A
  valid : w.dirty = false → Valid s d

/-- What a watcher keeps to in a run: the last edit is not yet seen, or a check noted it, and a check
that is late enough leaves nothing to do. -/
structure Keeps (s : Settings) (quiet : Float) (files : List Path) (hs : List Happening) (d : Disk)
    (past : List Disk) (w : Watcher) : Prop where
  watches : Watches s quiet files (d :: past) w
  edited : ∀ before, hs = .edit :: before → (Snapshot.timesOf d files).same w.seen = false
  looked : ∀ (checks : List Float) A before, hs = checks.map .check ++ .check A :: .edit :: before →
    Looked s files A d w ∧ ∀ B ∈ checks, ¬ B - A < quiet → w.dirty = false

namespace Keeps

variable {n : Nat} {past' : List Disk}

theorem idle (hk : Keeps s quiet files hs d past w) (hd : Sound s files d)
    (h : (w.check f now d).telling.result = .ok none) :
    Keeps s quiet files (.check now :: hs) d past (w.check f now d).watcher := by
  obtain ⟨hc, hw⟩ | ⟨hc, hw, hwait⟩ := idle_cases hk.watches hd h
  · rw [hw]
    refine ⟨⟨hk.watches.settings, hk.watches.quiet, d, List.mem_cons_self, rfl⟩, nofun, ?_⟩
    intro checks A before hhs
    cases checks with
    | nil =>
      cases hhs
      exact ⟨⟨Snapshot.timesOf_same_self d files, fun _ => rfl, nofun⟩, nofun⟩
    | cons B checks =>
      have hseen := (hk.looked checks A before (List.cons.inj hhs).2).1.seen
      rw [hc] at hseen
      cases hseen
  · rw [hw]
    refine ⟨hk.watches, nofun, ?_⟩
    intro checks A before hhs
    cases checks with
    | nil =>
      have hseen := hk.edited before (List.cons.inj hhs).2
      rw [hc] at hseen
      cases hseen
    | cons B checks =>
      obtain ⟨hB, hbefore⟩ := List.cons.inj hhs
      obtain ⟨hlooked, hclean⟩ := hk.looked checks A before hbefore
      obtain rfl : now = B := Happening.check.inj hB
      refine ⟨hlooked, List.forall_mem_cons.2 ⟨fun hq => ?_, hclean⟩⟩
      obtain hdirty | hlt := hwait
      · exact hdirty
      · by_contra hdirty
        rw [hlooked.noted (by simpa using hdirty)] at hlt
        exact hq hlt

theorem regenerate (hk : Keeps s quiet files hs d past w) (hd : Sound s files d)
    (hedits : Edits s n (d :: past) (e :: past')) (h : (w.check
      (fun _ _ => regeneration say (generate s t) e) now d).telling.result = .ok (some (.done (some g))))
    (hl : Scan.LinksStay s e (generate s t e).2) :
    Sound s files (w.check (fun _ _ => regeneration say (generate s t) e) now d).disk
      ∧ Keeps s quiet files (List.replicate n .edit ++ .check now :: hs)
        (w.check (fun _ _ => regeneration say (generate s t) e) now d).disk (e :: past')
        (w.check (fun _ _ => regeneration say (generate s t) e) now d).watcher := by
  obtain ⟨hc, hw, hresult, hdisk⟩ := regenerate_eq hk.watches hd h
  have hgen := regeneration_done.1 hresult
  rw [hw, hdisk, regeneration_disk]
  obtain ⟨e', past'', he, hsound, hsub, hnew⟩ := hd.edits hedits
  obtain ⟨rfl, rfl⟩ := List.cons.inj he
  obtain ⟨hd', htimes⟩ := hsound.generated hgen hl
  obtain ⟨d₀, hd₀, hseen⟩ := hk.watches.seen
  refine ⟨hd', ⟨hk.watches.settings, hk.watches.quiet, d₀, List.mem_cons_of_mem _ (hsub hd₀), hseen⟩,
    fun before hhs => ?_, fun checks A before hhs => ?_⟩
  · obtain ⟨rfl, rfl⟩ | hnew := hnew
    · cases hhs
    · rw [htimes, hseen]
      exact hnew d₀ hd₀
  · cases n with
    | succ n => cases checks <;> cases hhs
    | zero =>
      cases checks with
      | nil =>
        rw [hk.edited before (List.cons.inj hhs).2] at hc
        cases hc
      | cons B checks =>
        cases hedits
        exact ⟨⟨htimes ▸ hc, nofun, fun _ => valid_of_generate hsound hgen hl⟩,
          fun _ _ _ => rfl⟩

end Keeps

theorem Run.keeps {started : Option Watcher} (h : Run s say interval quiet hs ds started) :
    ∃ d past files, ds = d :: past ∧ Sound s files d
      ∧ ∀ w, started = some w → Keeps s quiet files hs d past w := by
  induction h with
  | generate ht ho h hl =>
    obtain ⟨files, -, hd, -⟩ := Sound.generate ht ho h hl
    exact ⟨_, _, files, rfl, hd, nofun⟩
  | edit _ hedit ih =>
    obtain ⟨d, past, files, rfl, hd, hk⟩ := ih
    obtain ⟨d', rfl, hd', hnew⟩ := hd.edit hedit
    refine ⟨d', _, files, rfl, hd', fun w hw => ?_⟩
    obtain ⟨⟨hs, hq, d₀, hd₀, hseen⟩, -, -⟩ := hk w hw
    refine ⟨⟨hs, hq, d₀, List.mem_cons_of_mem _ hd₀, hseen⟩, fun _ _ => ?_, fun checks A before hhs => ?_⟩
    · rw [hseen]
      exact hnew d₀ hd₀
    · cases checks <;> cases hhs
  | start _ hstart ih =>
    obtain ⟨d, past, files, hds, hd, -⟩ := ih
    obtain ⟨rfl, rfl⟩ := List.cons.inj hds
    obtain ⟨es, htake⟩ := Snapshot.take_of_modules hd.modules
    obtain ⟨seen, hseen, rfl⟩ := start_eq hstart
    rw [htake] at hseen
    cases hseen
    refine ⟨_, _, files, rfl, hd, fun w hw => ?_⟩
    cases hw
    refine ⟨⟨rfl, rfl, _, List.mem_cons_self, rfl⟩, nofun, fun checks A before hhs => ?_⟩
    cases checks <;> cases hhs
  | idle _ hidle ih =>
    obtain ⟨d, past, files, hds, hd, hk⟩ := ih
    obtain ⟨rfl, rfl⟩ := List.cons.inj hds
    refine ⟨_, _, files, rfl, hd, fun w hw => ?_⟩
    cases hw
    exact (hk _ rfl).idle hd hidle
  | regenerate _ hedits hturn hresult hl ih =>
    obtain ⟨d, past, files, hds, hd, hk⟩ := ih
    obtain ⟨rfl, rfl⟩ := List.cons.inj hds
    subst hturn
    obtain ⟨hd', hk'⟩ := (hk _ rfl).regenerate hd hedits hresult hl
    refine ⟨_, _, files, rfl, hd', fun w hw => ?_⟩
    cases hw
    exact hk'

/-- Once the last edit is followed by a check and another that is at least the quiet time later, counted
from the first check, the output is valid. -/
theorem Run.valid_of_first (h : Run s say interval quiet
      (checks.map .check ++ .check A :: .edit :: before) (d :: past) (some w))
    (hB : B ∈ checks) (hq : ¬ B - A < quiet) : Valid s d := by
  obtain ⟨d', past', files, hds, hd, hk⟩ := h.keeps
  obtain ⟨rfl, rfl⟩ := List.cons.inj hds
  obtain ⟨hlooked, hclean⟩ := (hk w rfl).looked checks A before rfl
  exact hlooked.valid (hclean B hB hq)

/-- No edit after the start is lost: once the last edit is followed by two checks that are at least the
quiet time apart, and there is a table, the output is valid. The clock does not go back. -/
theorem Run.valid_of_quiet (h : Run s say interval quiet (checks.map .check ++ .edit :: before)
      (d :: past) (some w))
    (hclock : checks.Pairwise fun later earlier => earlier ≤ later) (hAB : [B, A].Sublist checks)
    (hq : ¬ B - A < quiet) (hsome : (Collection.aggregate s s.outputFolder t d).result ≠ .ok none) :
    (validate s t d).result = .ok .inSync := by
  obtain rfl | ⟨later, first, rfl⟩ := List.eq_nil_or_concat' checks
  · cases hAB
  · obtain ⟨-, -, hfirst⟩ := List.pairwise_append.1 hclock
    replace hfirst : ∀ x ∈ later, first ≤ x := fun x hx => hfirst x hx first List.mem_cons_self
    have hle : A ≤ B := List.rel_of_pairwise_cons (hclock.sublist hAB) List.mem_cons_self
    have hB : B ∈ later := by
      obtain ⟨_ | ⟨x, l⟩, l', hl, hlater, hlast⟩ := List.sublist_append_iff.1 hAB
      · subst hl
        exact absurd hlast.length_le (by simp)
      · obtain ⟨rfl, -⟩ := List.cons.inj hl
        exact hlater.subset List.mem_cons_self
    rw [List.map_append, List.append_assoc] at h
    refine h.valid_of_first hB ?_ t hsome
    obtain hA | hA := List.mem_append.1 (hAB.subset (List.mem_cons_of_mem _ List.mem_cons_self))
    · exact Times.sub_not_lt (hfirst A hA) hle (hfirst B hB) hq
    · rwa [← List.mem_singleton.1 hA]

/-! ## Two runs -/

/-- A disk with one module, which declares a table. -/
def watchedDisk : Disk :=
  ⟨[(["ws"], .folder), (["ws", "schema"], .folder),
    (["ws", "schema", "a.ts"], .file "export const a = pgTable(1);\n".toUTF8 100)], ["ws"], 200⟩

/-- The disk after a first generation. -/
def generatedDisk : Disk :=
  (generate linkedSettings (linkedTime 5) watchedDisk).2

/-- The module declares another table now. -/
def changedDisk : Disk :=
  generatedDisk.rewrite ["ws", "schema", "a.ts"] "export const b = pgTable(1);\n".toUTF8 300 400

def watchedFiles : List Path :=
  [⟨.slash, ["ws", "schema", "a.ts"]⟩]

/-- The table that the module declares. -/
def watchedTable (symbol : String) : Table :=
  ⟨symbol, ⟨.slash, ["ws", "schema", "a.ts"]⟩, "../schema/a"⟩

def watchedAggregate (symbol : String) (time : Timestamp) : Aggregate :=
  ⟨Layout.body linkedSettings [watchedTable symbol], time, [watchedTable symbol]⟩

/-- The first generation writes, and there is no link. -/
theorem generate_watchedDisk : Sound linkedSettings watchedFiles watchedDisk
    ∧ (∃ g, (generate linkedSettings (linkedTime 5) watchedDisk).1.result = .ok g)
    ∧ Scan.LinksStay linkedSettings watchedDisk generatedDisk
    ∧ Output.Written linkedSettings.outputFile (watchedAggregate "a" (linkedTime 5)).text watchedDisk
      generatedDisk := by
  have hsound : Sound linkedSettings watchedFiles watchedDisk :=
    ⟨by decide, by decide, eq_ok_of_toOption (by decide)⟩
  have htables : (Collection.tables linkedSettings linkedSettings.outputFolder watchedDisk).result
      = .ok [watchedTable "a"] := eq_ok_of_toOption (by decide +kernel)
  have ha := aggregate_of_tables (t := linkedTime 5) htables rfl
  obtain ⟨g, hg, hw⟩ : ∃ g, (generate linkedSettings (linkedTime 5) watchedDisk).1.result = .ok g
      ∧ g.written = true := exists_ok_of_map (by decide +kernel)
  refine ⟨hsound, ⟨g, hg⟩, Scan.linksStay_of_no_link (by decide +kernel), ?_⟩
  obtain ⟨-, hn, -⟩ | ⟨a, previous, ha', hp, hwrite, -⟩ := generate_cases hg
  · rw [hn] at hw
    cases hw
  · obtain rfl := Option.some.inj (Except.ok.inj (ha'.symm.trans ha))
    have hwritten := Output.write_written hsound.tree (possible_of_aggregate ha) hsound.link hwrite
    rwa [← (generate_some ha hp).2] at hwritten

theorem sound_generated : Sound linkedSettings watchedFiles generatedDisk := by
  obtain ⟨hsound, ⟨g, hg⟩, hl, -⟩ := generate_watchedDisk
  exact (hsound.generated hg hl).1

theorem run_generated (say : Origin → String) :
    Run linkedSettings say 1 0.5 [] [generatedDisk, watchedDisk] none := by
  obtain ⟨hsound, ⟨g, hg⟩, hl, -⟩ := generate_watchedDisk
  exact .generate hsound.tree hsound.link hg hl

theorem edit_generated :
    Edit linkedSettings [generatedDisk, watchedDisk] [changedDisk, generatedDisk, watchedDisk] := by
  have hs : generatedDisk.stat ⟨.slash, ["ws", "schema", "a.ts"]⟩
      = .ok (["ws", "schema", "a.ts"], .file "export const a = pgTable(1);\n".toUTF8 100) :=
    eq_ok_of_toOption (by decide +kernel)
  refine .module sound_generated.modules List.mem_cons_self hs fun e he t' ht' => ?_
  have htime : e.modified? ⟨.slash, ["ws", "schema", "a.ts"]⟩ = some 100 := by
    obtain rfl | he := List.mem_cons.1 he
    · rw [modified?, hs]
    · obtain rfl := List.mem_singleton.1 he
      decide
  obtain rfl : t' = 100 := Option.some.inj (ht'.symm.trans htime)
  decide

theorem sound_changed : Sound linkedSettings watchedFiles changedDisk := by
  obtain ⟨_, hd, hsound, -⟩ := sound_generated.edit edit_generated
  obtain ⟨rfl, -⟩ := List.cons.inj hd
  exact hsound

/-- After the edit the output still tells of the first table, but the module declares another. A
further generation writes. -/
theorem generate_changedDisk :
    (Collection.tables linkedSettings linkedSettings.outputFolder changedDisk).result
        = .ok [watchedTable "b"]
    ∧ (Output.read? linkedSettings.outputFile changedDisk).result = .ok (some (String.ofList
        (Text.unifyLineEnds (watchedAggregate "a" (linkedTime 5)).text.toList)))
    ∧ Scan.LinksStay linkedSettings changedDisk (generate linkedSettings (linkedTime 6) changedDisk).2
    ∧ ∃ g, (generate linkedSettings (linkedTime 6) changedDisk).1.result = .ok g ∧ g.written = true := by
  have htables : (Collection.tables linkedSettings linkedSettings.outputFolder changedDisk).result
      = .ok [watchedTable "b"] := eq_ok_of_toOption (by decide +kernel)
  obtain ⟨-, -, -, hwritten⟩ := generate_watchedDisk
  have hfile : generatedDisk.IsFileAt ["ws", "schema", "a.ts"] :=
    ⟨"export const a = pgTable(1);\n".toUTF8, 100, by decide +kernel⟩
  obtain ⟨hread, hwrite⟩ : (Output.read? linkedSettings.outputFile changedDisk).result = .ok _
      ∧ (Output.write linkedSettings.outputFile (watchedAggregate "b" (linkedTime 6)).text
        changedDisk).1.result = .ok () := hwritten.rewrite hfile (by decide)
  refine ⟨htables, hread, Scan.linksStay_of_no_link (by decide +kernel), ?_⟩
  have hresult := (generate_some (a := watchedAggregate "b" (linkedTime 6))
    (aggregate_of_tables htables rfl) hread).1
  rw [hwrite] at hresult
  exact ⟨_, hresult, rfl⟩

theorem legible_watchedTable (symbol : String) (h : Source.isWordText symbol.toList = true) :
    ∀ t ∈ [watchedTable symbol], t.Legible := by
  intro t ht
  rw [List.mem_singleton.1 ht]
  exact Table.legible_of_isWordText _ h (by decide)

theorem validate_changedDisk (t : Timestamp) :
    ∃ v, (validate linkedSettings t changedDisk).result = .ok v ∧ v.isValid = false := by
  obtain ⟨htables, hread, -⟩ := generate_changedDisk
  have hemit : (Aggregate.emit linkedSettings (linkedTime 5) [watchedTable "a"]).result = .ok _ := rfl
  exact validate_of_symbols_ne valid_linkedSettings (legible_watchedTable "b" (by decide))
    (legible_watchedTable "a" (by decide)) htables rfl hemit hread (by simp [watchedTable])

theorem start_of_sound (hd : Sound s files d) : (Watcher.start s interval quiet d).result
    = .ok ⟨s, interval, quiet, 0, Snapshot.timesOf d files, false, 0, false⟩ := by
  obtain ⟨es, htake⟩ := Snapshot.take_of_modules hd.modules
  simp only [Watcher.start, Telling.bind_result, htake, Except.bind]
  rfl

/-- A watcher that was started and has seen a disk. -/
def startedOn (d : Disk) : Watcher :=
  ⟨linkedSettings, 1, 0.5, 0, Snapshot.timesOf d watchedFiles, false, 0, false⟩

/-- A watcher that has noted the edit. -/
def notedWatcher : Watcher :=
  ⟨linkedSettings, 1, 0.5, 0, Snapshot.timesOf changedDisk watchedFiles, true, 0, false⟩

/-- A generation as what a check calls. -/
def regenerates (e : Disk) : Nat → Change Regeneration :=
  fun _ _ => regeneration (fun _ => "") (generate linkedSettings (linkedTime 6)) e

/-- The edit after the start is noted by the first check, and the second regenerates. -/
theorem Run.valid_of_quiet_noted :
    ∃ (d : Disk) (past : List Disk) (w : Watcher),
      Run linkedSettings (fun _ => "") 1 0.5 [.check 10, .check 0, .edit, .start] (d :: past) (some w)
        ∧ ¬ (10 : Float) - 0 < 0.5 ∧ (validate linkedSettings (linkedTime 7) d).result = .ok .inSync := by
  obtain ⟨es, htake⟩ := Snapshot.take_of_modules sound_changed.modules
  have hq : ¬ (10 : Float) - 0 < 0.5 := by decide
  have hnoted := check_changed (w := startedOn generatedDisk) htake (by decide +kernel)
    (regenerates changedDisk) 0
  have hstarted : Run linkedSettings (fun _ => "") 1 0.5 [.start] [generatedDisk, watchedDisk]
      (some (startedOn generatedDisk)) := .start (run_generated _) (start_of_sound sound_generated)
  have hfirst : Run linkedSettings (fun _ => "") 1 0.5 [.check 0, .edit, .start]
      (changedDisk :: [generatedDisk, watchedDisk]) (some notedWatcher) := by
    have := Run.idle (.edit hstarted edit_generated) (congrArg (·.telling.result) hnoted)
    rwa [hnoted] at this
  obtain ⟨-, -, hl, g, hg, hw⟩ := generate_changedDisk
  obtain ⟨turn, hturn⟩ : ∃ turn, turn = notedWatcher.check (regenerates changedDisk) 10 changedDisk :=
    ⟨_, rfl⟩
  obtain ⟨hresult, -, hdisk⟩ := check_regenerates (w := notedWatcher) htake
    (Snapshot.timesOf_same_self _ _) rfl hq (regenerates changedDisk)
  rw [← hturn, regenerates, regeneration_done.2 hg] at hresult
  rw [← hturn, regenerates, regeneration_disk] at hdisk
  have hrun : Run linkedSettings (fun _ => "") 1 0.5 ([10, 0].map .check ++ .edit :: [.start])
      (turn.disk :: changedDisk :: [generatedDisk, watchedDisk]) (some turn.watcher) :=
    .regenerate (n := 0) hfirst .none hturn hresult hl
  obtain ⟨a, -, -, hagain⟩ := generate_written sound_changed.tree sound_changed.link hg hw hl
  have hsome : (Collection.aggregate linkedSettings linkedSettings.outputFolder (linkedTime 7)
      turn.disk).result ≠ .ok none := by
    rw [hdisk, hagain]
    simp
  have hclock : [10, 0].Pairwise fun later earlier : Float => earlier ≤ later := by decide
  exact ⟨_, _, _, hrun, hq, hrun.valid_of_quiet hclock (List.Sublist.refl _) hq hsome⟩

/-- The edit before the start is in what the watcher sees first, so no check notes it. -/
theorem Run.invalid_of_edit_before_start :
    ∃ (d : Disk) (past : List Disk) (w : Watcher),
      Run linkedSettings (fun _ => "") 1 0.5 [.check 10, .check 0, .start, .edit] (d :: past) (some w)
        ∧ (0 : Float) ≤ 10 ∧ ¬ (10 : Float) - 0 < 0.5
        ∧ ∃ v, (validate linkedSettings (linkedTime 7) d).result = .ok v ∧ v.isValid = false := by
  obtain ⟨es, htake⟩ := Snapshot.take_of_modules sound_changed.modules
  have hwaits : ∀ now, (startedOn changedDisk).check (regenerates changedDisk) now changedDisk
      = ⟨⟨es, .ok none⟩, startedOn changedDisk, changedDisk⟩ := fun now =>
    check_waits htake (Snapshot.timesOf_same_self changedDisk watchedFiles) (.inl rfl) _
  have hidle : ∀ {hs} now, Run linkedSettings (fun _ => "") 1 0.5 hs
      [changedDisk, generatedDisk, watchedDisk] (some (startedOn changedDisk)) →
      Run linkedSettings (fun _ => "") 1 0.5 (.check now :: hs)
        [changedDisk, generatedDisk, watchedDisk] (some (startedOn changedDisk)) := by
    intro hs now h
    have := h.idle (congrArg (·.telling.result) (hwaits now))
    rwa [hwaits] at this
  have hstarted : Run linkedSettings (fun _ => "") 1 0.5 [.start, .edit]
      [changedDisk, generatedDisk, watchedDisk] (some (startedOn changedDisk)) :=
    .start (.edit (run_generated _) edit_generated) (start_of_sound sound_changed)
  exact ⟨_, _, _, hidle 10 (hidle 0 hstarted), by decide, by decide,
    validate_changedDisk (linkedTime 7)⟩

end TableRoster.Watcher
