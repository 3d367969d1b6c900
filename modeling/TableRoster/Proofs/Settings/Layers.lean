import TableRoster.Proofs.Disk.Rewrite
import TableRoster.Proofs.Settings.Loading

/-! # Where settings come from

A setting is read from the value of the highest layer that has its key, and a path starts at the folder
that belongs to that layer. So what a lower layer says about a key does not matter, and neither do the
sections of other environments. -/

namespace TableRoster

namespace Settings

open Disk Telling

variable {d d' : Disk} {r r' : Request} {s s' : Settings} {fields fields' fs gs own rest : Fields}
  {key environment source : String} {v w : Value} {es es' : List (Value × Value)}
  {file folder folder' here real : Path}

/-! ## Layers -/

/-- What can have a value for a key. -/
inductive Layer
  | override
  | environment
  | file
  | preset
  deriving DecidableEq, Repr

namespace Layer

/-- All layers, highest first. -/
def all : List Layer :=
  [.override, .environment, .file, .preset]

def above (l : Layer) : List Layer :=
  all.takeWhile (· ≠ l)

/-- The value that a layer has for a key, where the settings file has some entries. -/
def value? (r : Request) (es : List (Value × Value)) (key : String) : Layer → Option Value
  | .override => lookup? (r.overrides.filter isGiven) key
  | .environment =>
    (sectionsIn? es).bind fun sections => (sectionIn? es sections r.environment).bind fun own =>
      (Value.get? own key).map (unrolled (othersIn es) own)
  | .file => (Value.get? (othersIn es) key).map (unrolled (othersIn es) (othersIn es))
  | .preset => lookup? Settings.preset key

/-- The folder that the paths of a layer start at. -/
def start (here folder : Path) : Layer → Path
  | .override => here
  | _ => folder

end Layer

/-- The highest layer that has a key, and its value. -/
def highest? (r : Request) (es : List (Value × Value)) (key : String) : Option (Layer × Value) :=
  Layer.all.findSome? fun l => (l.value? r es key).map (l, ·)

/-- Requests and settings files of which each layer says the same, but for keys that a higher layer of
both has. -/
def OnlyMasked (r : Request) (es : List (Value × Value)) (r' : Request) (es' : List (Value × Value)) : Prop :=
  ∀ key ∈ keys, ∀ l : Layer, l.value? r' es' key = l.value? r es key
    ∨ ∃ m ∈ l.above, (m.value? r' es' key).isSome = true ∧ (m.value? r es key).isSome = true

/-- What is found first does not depend on what is behind something found. -/
theorem findSome?_congr_of_masked {α β : Type} [DecidableEq α] {f g : α → Option β} {ls : List α}
    (h : ∀ l ∈ ls, f l = g l ∨ ∃ m ∈ ls.takeWhile (· ≠ l), (f m).isSome = true ∧ (g m).isSome = true) :
    ls.findSome? f = ls.findSome? g := by
  induction ls with
  | nil => rfl
  | cons l ls ih =>
    have hl : f l = g l := by simpa using h l List.mem_cons_self
    rw [List.findSome?_cons, List.findSome?_cons, ← hl]
    cases hf : f l with
    | some b => rfl
    | none =>
      refine ih fun k hk => (h k (List.mem_cons_of_mem _ hk)).imp_right ?_
      rintro ⟨m, hm, hfm, hgm⟩
      -- nothing is found at the first place
      have hne : m ≠ l := by
        rintro rfl
        rw [hf] at hfm
        cases hfm
      rw [List.takeWhile_cons] at hm
      split at hm
      · exact ⟨m, (List.mem_cons.1 hm).resolve_left hne, hfm, hgm⟩
      · cases hm

theorem OnlyMasked.highest?_eq (h : OnlyMasked r es r' es') (hkey : key ∈ keys) :
    highest? r' es' key = highest? r es key := by
  refine findSome?_congr_of_masked fun l _ => ?_
  rcases h key hkey l with he | ⟨m, hm, hs, hs'⟩
  · exact .inl (congrArg _ he)
  · exact .inr ⟨m, hm, by rwa [Option.isSome_map], by rwa [Option.isSome_map]⟩

/-! ## The settings file -/

/-- Entries that are the same but for the sections of other environments. -/
def SameButSections (environment : String) (es es' : List (Value × Value)) : Prop :=
  othersIn es' = othersIn es ∧ ∀ sections sections', sectionsIn? es = some sections →
    sectionsIn? es' = some sections' → Value.get? sections' environment = Value.get? sections environment

/-- The entries of a settings file; a file without content has none. -/
def entries? : Value → Option (List (Value × Value))
  | .null => some []
  | .map es => some es
  | _ => none

/-- The entries of the settings file of a request, none if there is no file, and the folder that its
paths start at. -/
inductive FileEntries (d : Disk) (r : Request) : List (Value × Value) → Path → Prop
  | noFile {folder : Path} : fileOf d r = .ok none → workingFolder d = .ok folder → FileEntries d r [] folder
  | file {file folder : Path} {text : String} {v : Value} {es : List (Value × Value)} :
      fileOf d r = .ok (some file) → d.text file = .ok text → Yaml.read text = .ok v →
      entries? v = some es → d.realPath file.parent = .ok folder → FileEntries d r es folder

theorem FileEntries.unique (h : FileEntries d r es folder) (h' : FileEntries d r es' folder') :
    es' = es ∧ folder' = folder := by
  cases h with
  | noFile hf hw =>
    cases h' with
    | noFile _ hw' => exact ⟨rfl, Except.ok.inj (hw'.symm.trans hw)⟩
    | file hf' => cases hf'.symm.trans hf
  | file hf ht hv he hp =>
    cases h' with
    | noFile hf' => cases hf'.symm.trans hf
    | file hf' ht' hv' he' hp' =>
      obtain rfl := Option.some.inj (Except.ok.inj (hf'.symm.trans hf))
      obtain rfl := Except.ok.inj (ht'.symm.trans ht)
      obtain rfl := Except.ok.inj (hv'.symm.trans hv)
      exact ⟨Option.some.inj (he'.symm.trans he), Except.ok.inj (hp'.symm.trans hp)⟩

/-- Entries whose keys are all settings. -/
def AllKnown (es : List (Value × Value)) : Prop :=
  ∀ e ∈ es, ∃ k ∈ keys, e.1 = .text k

theorem allKnown_of_unknownKeys (h : unknownKeys es = .ok []) : AllKnown es := by
  unfold unknownKeys at h
  dsimp only at h
  split at h
  · rename_i hlength
    have hsort := Except.ok.inj h
    rw [← List.length_eq_zero_iff, List.length_mergeSort, hlength, List.length_eq_zero_iff,
      List.filter_eq_nil_iff] at hsort
    intro e he
    have hknown := hsort e.1 (List.mem_map_of_mem he)
    cases hk : e.1 with
    | text k => exact ⟨k, by simpa [hk] using hknown, rfl⟩
    | _ => simp [hk] at hknown
  · cases h

theorem knownFields_eq_ok (h : (knownFields source es).result = .ok fs) :
    AllKnown es ∧ fs = textEntries es := by
  obtain ⟨unknown, hunknown, h⟩ := bind_eq_ok h
  split at h
  · rename_i hnone
    exact ⟨allKnown_of_unknownKeys (hnone ▸ ofCrash_eq_ok hunknown), (Except.ok.inj h).symm⟩
  · cases h

theorem sameKey_text {k : Value} : Value.sameKey k (.text key) = true ↔ k = .text key := by
  cases k <;> simp [Value.sameKey, Value.whole?]

theorem mem_of_get? (h : Value.get? es key = some v) : (.text key, v) ∈ es := by
  obtain ⟨⟨k, w⟩, he, rfl⟩ := Option.map_eq_some_iff.1 h
  have hk : Value.sameKey k (.text key) = true := by simpa using List.find?_some he
  exact sameKey_text.1 hk ▸ List.mem_of_find?_eq_some he

theorem lookup?_textEntries (es : List (Value × Value)) (key : String) :
    lookup? (textEntries es) key = Value.get? es key := by
  induction es with
  | nil => rfl
  | cons e es ih =>
    obtain ⟨k, v⟩ := e
    by_cases hk : k = .text key
    · subst hk
      simp [textEntries, lookup?, Value.get?, Value.sameKey]
    · have hother : Value.sameKey k (.text key) = false := Bool.eq_false_iff.2 (sameKey_text.not.2 hk)
      have hget : Value.get? ((k, v) :: es) key = Value.get? es key := by
        simp [Value.get?, hother]
      rw [hget, ← ih]
      cases k with
      | text t =>
        have ht : t ≠ key := fun he => hk (congrArg _ he)
        simp [textEntries, lookup?, ht]
      | _ => rfl

theorem get?_map (f : Value → Value) (es : List (Value × Value)) (key : String) :
    Value.get? (es.map fun e => (e.1, f e.2)) key = (Value.get? es key).map f := by
  simp [Value.get?, List.find?_map, Function.comp_def]

/-- The layers of a settings file with some entries. -/
structure Held (es : List (Value × Value)) (environment : String) (own rest : Fields) : Prop where
  own_eq : ∃ sections entries, sectionsIn? es = some sections
    ∧ sectionIn? es sections environment = some entries ∧ AllKnown entries
    ∧ ∀ key, lookup? own key = (Value.get? entries key).map (unrolled (othersIn es) entries)
  rest_eq : ∀ key, lookup? rest key = (Value.get? (othersIn es) key).map
    (unrolled (othersIn es) (othersIn es))

theorem held_nil (environment : String) : Held [] environment [] [] :=
  ⟨⟨[], [], rfl, rfl, nofun, fun _ => rfl⟩, fun _ => rfl⟩

theorem held_of_fileLayers (h : (fileLayers file environment v).result = .ok (own, rest)) :
    ∃ es, entries? v = some es ∧ Held es environment own rest := by
  unfold fileLayers at h
  split at h
  · cases h
    exact ⟨[], rfl, held_nil environment⟩
  · rename_i es
    split at h
    · cases h
    · rename_i sections hsections
      obtain ⟨rest', hrest, h⟩ := bind_eq_ok h
      split at h
      · cases h
      · rename_i entries hentries
        obtain ⟨own', hown, h⟩ := bind_eq_ok h
        cases h
        obtain ⟨-, rfl⟩ := knownFields_eq_ok hrest
        obtain ⟨hknown, rfl⟩ := knownFields_eq_ok hown
        have hentriesKnown : AllKnown entries := fun e he =>
          hknown (e.1, unrolled (othersIn es) entries e.2) (List.mem_map.2 ⟨e, he, rfl⟩)
        refine ⟨es, rfl, ⟨⟨sections, entries, hsections, hentries, hentriesKnown, fun key => ?_⟩,
          fun key => ?_⟩⟩
        · rw [lookup?_textEntries, get?_map]
        · rw [lookup?_textEntries, get?_map]
  · cases h

theorem held_of_readFile (h : (readFile d file environment).result = .ok (own, rest)) :
    ∃ text v es, d.text file = .ok text ∧ Yaml.read text = .ok v ∧ entries? v = some es
      ∧ Held es environment own rest := by
  unfold readFile at h
  split at h
  · cases h
  · obtain ⟨-, -, h⟩ := bind_eq_ok h
    split at h
    · cases h
    · cases h
    · rename_i text htext
      split at h
      · cases h
      · cases h
      · rename_i v hv
        obtain ⟨es, he, hheld⟩ := held_of_fileLayers h
        exact ⟨text, v, es, htext, hv, he, hheld⟩

theorem held_of_fileLayersOf (h : (fileLayersOf d r).result = .ok (own, rest, folder)) :
    ∃ es, FileEntries d r es folder ∧ Held es r.environment own rest := by
  obtain ⟨file, hfile, h⟩ := bind_eq_ok h
  cases file with
  | none =>
    obtain ⟨here, hhere, h⟩ := bind_eq_ok h
    cases h
    exact ⟨[], .noFile (ofCrash_eq_ok hfile) (ofCrash_eq_ok hhere), held_nil _⟩
  | some file =>
    obtain ⟨⟨own', rest'⟩, hread, h⟩ := bind_eq_ok h
    obtain ⟨real, hreal, h⟩ := bind_eq_ok h
    cases h
    obtain ⟨text, v, es, htext, hv, he, hheld⟩ := held_of_readFile hread
    exact ⟨es, .file (ofCrash_eq_ok hfile) htext hv he (ofCrash_eq_ok hreal), hheld⟩

namespace Held

variable (h : Held es r.environment own rest)

include h

theorem environment_eq (key : String) : Layer.value? r es key .environment = lookup? own key := by
  obtain ⟨sections, entries, hsections, hentries, -, hown⟩ := h.own_eq
  simp only [Layer.value?, hsections, hentries, Option.bind_some, hown]

theorem file_eq (key : String) : Layer.value? r es key .file = lookup? rest key :=
  (h.rest_eq key).symm

end Held

/-! ## Real paths -/

/-- What the value of a layer becomes: a text that is a path is the real path from the folder of the
layer on, and any other value is kept. -/
inductive Settled (d : Disk) (here folder : Path) (key : String) : Layer × Value → Value → Prop
  | path {l : Layer} {t : String} {real : Path} : key ∈ pathKeys →
      d.realPath ((l.start here folder).join (.ofString t)) = .ok real →
      Settled d here folder key (l, .text t) (.text real.text)
  | kept {l : Layer} {v : Value} : key ∉ pathKeys → Settled d here folder key (l, v) v

theorem realValue_eq_ok (h : (realValue d folder v).result = .ok w) :
    ∃ t real, v = .text t ∧ d.realPath (folder.join (.ofString t)) = .ok real ∧ w = .text real.text := by
  unfold realValue at h
  split at h
  · rename_i t
    obtain ⟨real, hreal, h⟩ := bind_eq_ok h
    exact ⟨t, real, rfl, ofCrash_eq_ok hreal, (Except.ok.inj h).symm⟩
  · split at h <;> cases h

theorem settled_of_realFields (l : Layer) (h : (realFields d (l.start here folder) fs).result = .ok gs)
    (key : String) :
    Option.Rel (fun v => Settled d here folder key (l, v)) (lookup? fs key) (lookup? gs key) := by
  induction fs generalizing gs with
  | nil =>
    cases h
    exact .none
  | cons f fs ih =>
    obtain ⟨k, v⟩ := f
    unfold realFields at h
    obtain ⟨w, hw, gs, hgs, rfl⟩ : ∃ w, Settled d here folder k (l, v) w
        ∧ ∃ gs', (realFields d (l.start here folder) fs).result = .ok gs' ∧ gs = (k, w) :: gs' := by
      dsimp only at h
      split at h
      · rename_i hkey
        obtain ⟨w, hw, h⟩ := bind_eq_ok h
        obtain ⟨t, real, rfl, hreal, rfl⟩ := realValue_eq_ok hw
        obtain ⟨gs', hgs, h⟩ := bind_eq_ok h
        exact ⟨_, .path hkey hreal, gs', hgs, (Except.ok.inj h).symm⟩
      · rename_i hkey
        obtain ⟨w, hw, h⟩ := bind_eq_ok h
        obtain rfl := Except.ok.inj hw
        obtain ⟨gs', hgs, h⟩ := bind_eq_ok h
        exact ⟨v, .kept hkey, gs', hgs, (Except.ok.inj h).symm⟩
    rw [lookup?_cons, lookup?_cons]
    by_cases hk : k = key
    · subst hk
      rw [if_pos rfl, if_pos rfl]
      exact .some hw
    · rw [if_neg hk, if_neg hk]
      exact ih hgs

/-- What is highest is an override, or the value that is taken from the layers below. -/
theorem highest?_of_held (h : Held es r.environment own rest) (key : String) :
    ∃ l ≠ Layer.override, highest? r es key
      = ((lookup? (r.overrides.filter isGiven) key).map (.override, ·)).or
        ((valueIn? [own, rest, preset] key).map (l, ·)) := by
  have hall : highest? r es key = ((lookup? (r.overrides.filter isGiven) key).map (.override, ·)).or
      (((lookup? own key).map (.environment, ·)).or (((lookup? rest key).map (.file, ·)).or
        ((lookup? preset key).map (.preset, ·)))) := by
    have hcons : ∀ (f : Layer → Option (Layer × Value)) (l : Layer) (ls : List Layer),
        (l :: ls).findSome? f = (f l).or (ls.findSome? f) := by
      intro f l ls
      rw [List.findSome?_cons]
      cases f l <;> rfl
    rw [← h.environment_eq, ← h.file_eq, highest?, Layer.all, hcons, hcons, hcons, hcons,
      List.findSome?_nil, Option.or_none]
    rfl
  have hbelow : valueIn? [own, rest, preset] key
      = (lookup? own key).or ((lookup? rest key).or (lookup? preset key)) := by
    rw [valueIn?_cons, valueIn?_cons, valueIn?_cons, show valueIn? [] key = none from rfl, Option.or_none]
  rw [hall, hbelow]
  cases lookup? own key with
  | some v => exact ⟨.environment, by decide, rfl⟩
  | none =>
    cases lookup? rest key with
    | some v => exact ⟨.file, by decide, rfl⟩
    | none => exact ⟨.preset, by decide, rfl⟩

theorem rel_map {α β γ : Type} {R : β → γ → Prop} {f : α → β} {a : Option α} {c : Option γ}
    (h : Option.Rel (fun x => R (f x)) a c) : Option.Rel R (a.map f) c := by
  cases h with
  | some h => exact .some h
  | none => exact .none

theorem rel_or {α β : Type} {R : α → β → Prop} {a a' : Option α} {b b' : Option β} (h : Option.Rel R a b)
    (h' : Option.Rel R a' b') : Option.Rel R (a.or a') (b.or b') := by
  cases h with
  | some h => exact .some h
  | none => exact h'

/-- The value that is read for a key is made of that of the highest layer. -/
theorem settled_highest {given lower : Fields} (hheld : Held es r.environment own rest)
    (hgiven : (realFields d here (r.overrides.filter isGiven)).result = .ok given)
    (hlower : (realFields d folder (fieldsIn [own, rest, preset])).result = .ok lower)
    (hkey : key ∈ keys) : Option.Rel (Settled d here folder key) (highest? r es key)
      (lookup? (fieldsIn [given, lower]) key) := by
  have hover : Option.Rel (fun v => Settled d here folder key (.override, v))
      (lookup? (r.overrides.filter isGiven) key) (lookup? given key) :=
    settled_of_realFields .override hgiven key
  have hbelow : ∀ l ≠ .override, Option.Rel (fun v => Settled d here folder key (l, v))
      (valueIn? [own, rest, preset] key) (lookup? lower key) := by
    intro l hl
    have hstart : l.start here folder = folder := by cases l <;> first | rfl | exact absurd rfl hl
    rw [← lookup?_fieldsIn _ hkey]
    refine settled_of_realFields l ?_ key
    rwa [hstart]
  obtain ⟨l, hl, hhighest⟩ := highest?_of_held hheld key
  have hgiven' : valueIn? [given, lower] key = (lookup? given key).or (lookup? lower key) := by
    rw [valueIn?_cons, valueIn?_cons, show valueIn? [] key = none from rfl, Option.or_none]
  rw [lookup?_fieldsIn _ hkey, hgiven', hhighest]
  exact rel_or (rel_map hover) (rel_map (hbelow l hl))

theorem Settled.unique {l : Layer × Value} (h : Settled d here folder key l v)
    (h' : Settled d' here folder key l w) (hreal : ∀ p, d'.realPath p = d.realPath p) : w = v := by
  cases h with
  | path hkey hp =>
    cases h' with
    | path _ hp' =>
      rw [hreal, hp] at hp'
      rw [Except.ok.inj hp']
    | kept hno => exact absurd hkey hno
  | kept hno =>
    cases h' with
    | path hkey => exact absurd hkey hno
    | kept => rfl

theorem settled_unique {top : Option (Layer × Value)} {a b : Option Value}
    (h : Option.Rel (Settled d here folder key) top a) (h' : Option.Rel (Settled d' here folder key) top b)
    (hreal : ∀ p, d'.realPath p = d.realPath p) : b = a := by
  cases h with
  | none =>
    cases h'
    rfl
  | some h =>
    cases h' with
    | some h' => rw [h.unique h' hreal]

theorem isAbsolute_of_realPath {p : Path} (h : d.realPath p = .ok real) : real.isAbsolute = true := by
  unfold realPath at h
  split at h
  · cases h
  · dsimp only at h
    split at h
    · cases h
    · cases h
      rfl

/-! ## Settings from layers -/

/-- Settings that are read, key by key, from the value of the highest layer that has the key. -/
def FromHighest (d : Disk) (r : Request) (es : List (Value × Value)) (here folder : Path) (s : Settings) :
    Prop :=
  ∃ fields, ReadFrom fields s ∧ ∀ key ∈ keys,
    Option.Rel (Settled d here folder key) (highest? r es key) (lookup? fields key)

theorem ReadFrom.unique (h : ReadFrom fields s) (h' : ReadFrom fields' s')
    (hsame : ∀ key ∈ keys, lookup? fields' key = lookup? fields key) : s' = s := by
  have hrequired : ∀ {α : Type} {read : List Step → Value → Read α} {key : String} {x y : α}, key ∈ keys →
      required fields key read = .ok x → required fields' key read = .ok y → y = x := by
    intro _ _ key x y hkey hx hy
    rw [required, hsame key hkey] at hy
    exact Except.ok.inj (hy.symm.trans hx)
  have hoptional : ∀ {α : Type} {read : List Step → Value → Read α} {own : α} {key : String} {x y : α},
      key ∈ keys → optional fields key read own = .ok x → optional fields' key read own = .ok y → y = x := by
    intro _ _ _ key x y hkey hx hy
    rw [optional, hsame key hkey] at hy
    exact Except.ok.inj (hy.symm.trans hx)
  have hpatterns : ∀ {own x y : List String} {key : String}, key ∈ keys →
      optionalPatterns fields key own = .ok (.ok x) → optionalPatterns fields' key own = .ok (.ok y) → y = x := by
    intro _ x y key hkey hx hy
    rw [optionalPatterns, hsame key hkey] at hy
    exact Except.ok.inj (Except.ok.inj (hy.symm.trans hx))
  obtain ⟨⟩ := s
  obtain ⟨⟩ := s'
  obtain ⟨h₁, h₂, h₃, h₄, h₅, h₆, h₇, h₈, h₉, h₁₀, h₁₁⟩ := h
  obtain ⟨k₁, k₂, k₃, k₄, k₅, k₆, k₇, k₈, k₉, k₁₀, k₁₁⟩ := h'
  rw [Settings.mk.injEq]
  exact ⟨hrequired (by decide) h₁ k₁, hrequired (by decide) h₂ k₂, hoptional (by decide) h₃ k₃,
    hpatterns (by decide) h₄ k₄, hpatterns (by decide) h₅ k₅, hoptional (by decide) h₆ k₆,
    hoptional (by decide) h₇ k₇, hoptional (by decide) h₈ k₈, hoptional (by decide) h₉ k₉,
    hoptional (by decide) h₁₀ k₁₀, hoptional (by decide) h₁₁ k₁₁⟩

/-- What a load that succeeds is made of. -/
theorem fromHighest_of_load (h : (load r d).result = .ok s) : r.environment ∈ environments
    ∧ ∃ es folder here own rest, FileEntries d r es folder ∧ workingFolder d = .ok here
      ∧ Held es r.environment own rest ∧ FromHighest d r es here folder s := by
  unfold load at h
  split at h
  · cases h
  · rename_i henvironment
    obtain ⟨⟨own, rest, folder⟩, hlayers, h⟩ := bind_eq_ok h
    obtain ⟨lower, hlower, h⟩ := bind_eq_ok h
    obtain ⟨here, hhere, h⟩ := bind_eq_ok h
    obtain ⟨given, hgiven, h⟩ := bind_eq_ok h
    obtain ⟨-, -, h⟩ := bind_eq_ok h
    obtain ⟨res, hread, h⟩ := bind_eq_ok h
    obtain ⟨es, hes, hheld⟩ := held_of_fileLayersOf hlayers
    cases res with
    | error ds => cases h
    | ok s' =>
      obtain ⟨-, -, h⟩ := bind_eq_ok h
      obtain rfl := Except.ok.inj h
      exact ⟨not_not.1 henvironment, es, folder, here, own, rest, hes, ofCrash_eq_ok hhere, hheld, _,
        readFrom_of_read (ofCrash_eq_ok hread), fun key hkey => settled_highest hheld hgiven hlower hkey⟩

theorem FromHighest.isAbsolute (h : FromHighest d r es here folder s) :
    s.schemaFolder.isAbsolute = true ∧ s.outputFile.isAbsolute = true := by
  obtain ⟨fields, hread, hfields⟩ := h
  have hpath : ∀ {key : String} {p : Path}, key ∈ keys → key ∈ pathKeys →
      required fields key readPath = .ok p → p.isAbsolute = true := by
    intro key p hkey hpathKey hp
    obtain ⟨v, hv, hp⟩ := required_eq_ok hp
    obtain ⟨t, rfl, rfl⟩ := readPath_eq_ok hp
    have hsettled := hfields key hkey
    rw [hv] at hsettled
    generalize highest? r es key = top at hsettled
    cases hsettled with
    | some hsettled =>
      cases hsettled with
      | path _ hreal => exact isAbsolute_ofString_text (isAbsolute_of_realPath hreal)
      | kept hno => exact absurd hpathKey hno
  exact ⟨hpath (by decide) (by decide) hread.schemaFolder, hpath (by decide) (by decide) hread.outputFile⟩

/-- Layers that agree on what is highest, from the same folders on, make the same settings. -/
theorem FromHighest.unique (h : FromHighest d r es here folder s) (h' : FromHighest d' r' es' here folder s')
    (hreal : ∀ p, d'.realPath p = d.realPath p)
    (hhighest : ∀ key ∈ keys, highest? r' es' key = highest? r es key) : s' = s := by
  obtain ⟨fields, hread, hfields⟩ := h
  obtain ⟨fields', hread', hfields'⟩ := h'
  refine hread.unique hread' fun key hkey => ?_
  have hother := hfields' key hkey
  rw [hhighest key hkey] at hother
  exact settled_unique (hfields key hkey) hother hreal

/-- The section of an environment is the same where only other sections differ: it cannot be all sections
again, since the name of the environment would be a key in it. -/
theorem sectionIn?_of_sections {sections sections' own own' : List (Value × Value)}
    (hothers : othersIn es' = othersIn es)
    (hsection : Value.get? sections' environment = Value.get? sections environment)
    (henvironment : environment ∈ environments) (h : sectionIn? es sections environment = some own)
    (h' : sectionIn? es' sections' environment = some own') (hknown : AllKnown own) : own' = own := by
  unfold sectionIn? at h h'
  rw [hothers, hsection] at h'
  cases hv : Value.get? sections environment with
  | none =>
    rw [hv] at h h'
    exact Option.some.inj (h'.symm.trans h)
  | some v =>
    rw [hv] at h h'
    by_cases hagain : v = .again true false
    · subst hagain
      obtain rfl : sections = own := Option.some.inj h
      obtain ⟨k, hk, hname⟩ := hknown _ (mem_of_get? hv)
      obtain rfl := Value.text.inj hname
      exact absurd hk ((by decide : ∀ x ∈ environments, x ∉ keys) environment henvironment)
    · have hsame : unrolled (othersIn es) sections' v = unrolled (othersIn es) sections v := by
        unfold unrolled
        split <;> first | rfl | exact absurd rfl hagain
      rw [Option.map_some, hsame] at h'
      exact Option.some.inj (h'.symm.trans h)

theorem onlyMasked_of_sections (hes : SameButSections r.environment es es')
    (henvironment : r.environment ∈ environments) (h : Held es r.environment own rest)
    {own' rest' : Fields} (h' : Held es' r'.environment own' rest') (hr : r'.environment = r.environment)
    (hover : r'.overrides = r.overrides) : OnlyMasked r es r' es' := by
  obtain ⟨hothers, hsections⟩ := hes
  obtain ⟨sections, entries, hsome, hentries, hknown, -⟩ := h.own_eq
  obtain ⟨sections', entries', hsome', hentries', -, -⟩ := h'.own_eq
  rw [hr] at hentries'
  obtain rfl := sectionIn?_of_sections hothers (hsections _ _ hsome hsome') henvironment hentries
    hentries' hknown
  refine fun key _ l => .inl ?_
  cases l with
  | override => rw [Layer.value?, Layer.value?, hover]
  | environment => simp only [Layer.value?, hsome, hsome', hr, hentries, hentries', hothers, Option.bind_some]
  | file => rw [Layer.value?, Layer.value?, hothers]
  | preset => rfl

/-! ## A file with a name for the aggregate -/

/-- A request that names the aggregate. -/
def namingRequest : Request :=
  fileRequest [("aggregate_name", .text "db")]

/-- A file with a name for the aggregate, and one with a name for another environment as well. -/
def nameText (t : String) : String :=
  "aggregate_name: " ++ t ++ "\n"

def sectionText (t u : String) : String :=
  nameText t ++ "environments: \x7bprod: \x7baggregate_name: " ++ u ++ "\x7d\x7d\n"

/-- A disk with such a file, and the disk with that file rewritten. -/
def namedDisk : Disk :=
  settingsDisk (nameText "a").toUTF8

def renamedDisk (text : String) : Disk :=
  namedDisk.rewrite ["ws", "schemagen.yml"] text.toUTF8 0 0

theorem realPath_renamedDisk (text : String) (p : Path) :
    (renamedDisk text).realPath p = namedDisk.realPath p :=
  realPath_rewrite ⟨_, _, rfl⟩ (settingsDisk_tree _).1 p

/-- The entries of either file. -/
def namedEntries (t : String) : List (Value × Value) :=
  [(.text "aggregate_name", .text t)]

def sectionedEntries (t u : String) : List (Value × Value) :=
  namedEntries t ++ [(.text "environments", .map [(.text "prod", .map (namedEntries u))])]

/-- The names that either file has. -/
def namesIn? : Value → Option (List String)
  | .map [(.text "aggregate_name", .text t)] => some [t]
  | .map [(.text "aggregate_name", .text t),
      (.text "environments", .map [(.text "prod", .map [(.text "aggregate_name", .text u)])])] => some [t, u]
  | _ => none

theorem fileEntries_of_namesIn? {text : String} {names : List String}
    (htext : d.text ⟨.slash, ["ws", "schemagen.yml"]⟩ = .ok text)
    (hnames : (Yaml.read text).toOption.bind namesIn? = some names)
    (hreal : ∀ p, d.realPath p = namedDisk.realPath p) :
    (∀ t, names = [t] → FileEntries d namingRequest (namedEntries t) ⟨.slash, ["ws"]⟩)
      ∧ ∀ t u, names = [t, u] → FileEntries d namingRequest (sectionedEntries t u) ⟨.slash, ["ws"]⟩ := by
  obtain ⟨v, hv, hnames⟩ := Option.bind_eq_some_iff.1 hnames
  have hparent : d.realPath ⟨.slash, ["ws"]⟩ = .ok ⟨.slash, ["ws"]⟩ := (hreal _).trans rfl
  unfold namesIn? at hnames
  split at hnames
  · cases hnames
    refine ⟨?_, nofun⟩
    rintro _ ⟨⟩
    exact .file rfl htext (eq_ok_of_toOption hv) rfl hparent
  · cases hnames
    refine ⟨nofun, ?_⟩
    rintro _ _ ⟨⟩
    exact .file rfl htext (eq_ok_of_toOption hv) rfl hparent
  · cases hnames

/-- The only entry of a file is masked by an override of its key. -/
theorem onlyMasked_naming (t u : String) :
    OnlyMasked namingRequest (namedEntries t) namingRequest (namedEntries u) := by
  intro key _ l
  cases l with
  | override | preset => exact .inl rfl
  | environment => exact .inl rfl
  | file =>
    by_cases hkey : key = "aggregate_name"
    · subst hkey
      exact .inr ⟨.override, by decide, rfl, rfl⟩
    · left
      simp [Layer.value?, namedEntries, othersIn, isSections, sectionsKey, Value.get?, Value.sameKey,
        Ne.symm hkey]

theorem sameButSections_naming (t u : String) :
    SameButSections namingRequest.environment (namedEntries t) (sectionedEntries t u) := by
  refine ⟨rfl, fun sections sections' h h' => ?_⟩
  cases h
  cases h'
  rfl

/-! ## What loading reads -/

/-- Each setting is read from the value of the highest layer that has its key, and a path starts at the
folder of that layer. So it does not matter what a layer says about a key that a higher one has, or what
the sections of other environments say, as long as paths from the same folders are real in the same way. -/
theorem load_highest (h : (load r d).result = .ok s) :
    ∃ es folder here, FileEntries d r es folder ∧ workingFolder d = .ok here
      ∧ FromHighest d r es here folder s
      ∧ s.schemaFolder.isAbsolute = true ∧ s.outputFile.isAbsolute = true
      ∧ ∀ {r' d' s' es'}, (load r' d').result = .ok s' → FileEntries d' r' es' folder →
        (∀ p, d'.realPath p = d.realPath p) →
        (OnlyMasked r es r' es' ∨ r'.overrides = r.overrides ∧ r'.environment = r.environment
          ∧ SameButSections r.environment es es') → s' = s := by
  obtain ⟨henvironment, es, folder, here, own, rest, hes, hhere, hheld, hmade⟩ := fromHighest_of_load h
  obtain ⟨hschema, houtput⟩ := hmade.isAbsolute
  refine ⟨es, folder, here, hes, hhere, hmade, hschema, houtput, fun {r' d' s' es'} h' hes' hreal hsame => ?_⟩
  obtain ⟨-, es'', folder', here', own', rest', hes'', hhere', hheld', hmade'⟩ := fromHighest_of_load h'
  obtain ⟨rfl, rfl⟩ := hes'.unique hes''
  obtain rfl : here' = here := Except.ok.inj (hhere'.symm.trans ((hreal _).trans hhere))
  have hmasked : OnlyMasked r es r' es'' := by
    rcases hsame with hmasked | ⟨hover, henv, hsections⟩
    · exact hmasked
    · exact onlyMasked_of_sections hsections henvironment hheld hheld' henv hover
  exact hmade.unique hmade' hreal fun key hkey => hmasked.highest?_eq hkey

/-- A name for the aggregate in a file does not matter where another one is asked for, and neither does
the name in the section of another environment. -/
theorem load_highest_naming : ∃ s, (load namingRequest namedDisk).result = .ok s
    ∧ (load namingRequest (renamedDisk (nameText "b"))).result = .ok s
    ∧ (load namingRequest (renamedDisk (sectionText "a" "c"))).result = .ok s := by
  have hloads : ∀ d ∈ [namedDisk, renamedDisk (nameText "b"), renamedDisk (sectionText "a" "c")],
      (load namingRequest d).result.toOption.isSome = true := by
    decide +kernel
  simp only [List.forall_mem_cons, Option.isSome_iff_exists] at hloads
  obtain ⟨⟨s, hs⟩, ⟨s', hs'⟩, ⟨s'', hs''⟩, -⟩ := hloads
  have htext : ∀ d ∈ [(namedDisk, nameText "a"), (renamedDisk (nameText "b"), nameText "b"),
      (renamedDisk (sectionText "a" "c"), sectionText "a" "c")],
      (d.1.text ⟨.slash, ["ws", "schemagen.yml"]⟩).toOption = some d.2 := by
    decide +kernel
  simp only [List.forall_mem_cons] at htext
  obtain ⟨hnamed, hrenamed, hsectioned, -⟩ := htext
  have hentries := (fileEntries_of_namesIn? (eq_ok_of_toOption hnamed) (by decide +kernel)
    fun _ => rfl).1 "a" rfl
  have hentries' := (fileEntries_of_namesIn? (eq_ok_of_toOption hrenamed) (by decide +kernel)
    (realPath_renamedDisk _)).1 "b" rfl
  have hentries'' := (fileEntries_of_namesIn? (eq_ok_of_toOption hsectioned) (by decide +kernel)
    (realPath_renamedDisk _)).2 "a" "c" rfl
  obtain ⟨es, folder, here, hes, -, -, -, -, hsame⟩ := load_highest (eq_ok_of_toOption hs)
  obtain ⟨rfl, rfl⟩ := hes.unique hentries
  obtain rfl := hsame (eq_ok_of_toOption hs') hentries' (realPath_renamedDisk _)
    (.inl (onlyMasked_naming "a" "b"))
  obtain rfl := hsame (eq_ok_of_toOption hs'') hentries'' (realPath_renamedDisk _)
    (.inr ⟨rfl, rfl, sameButSections_naming "a" "c"⟩)
  exact ⟨_, eq_ok_of_toOption hs, eq_ok_of_toOption hs', eq_ok_of_toOption hs''⟩

end Settings

end TableRoster
