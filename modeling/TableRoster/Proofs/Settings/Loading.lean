import Mathlib
import TableRoster.Proofs.Disk.RealPath
import TableRoster.Proofs.Path.Parts
import TableRoster.Proofs.Settings.Reading
import TableRoster.Settings.Layers

/-! # How loading settings ends

Loading ends with settings, or with a failure that tells what is wrong with them. It crashes on what
no check looks at: the bytes of the settings file, keys that are no texts, what cannot be a name of a
file, numbers that cannot be shown, and counts in patterns. -/

namespace TableRoster

/-- What is wrong is the configuration. -/
def Failure.IsConfiguration : Failure → Prop
  | .unknownEnvironment _ | .settingsMissing _ | .settingsUnreadable .. | .settingsMalformed _
  | .settingsNoMapping .. | .environmentsNoMapping _ | .environmentNoMapping .. | .unknownKeys ..
  | .badPathValue _ | .badSettings _ => True
  | _ => False

namespace Telling

variable {α β : Type} {t : Telling α} {P Q : α → Prop} {R : β → Prop} {B C : Crash → Prop}

/-- A step ends with a result of a kind, with a failure of the configuration, or with a crash of a
kind. -/
inductive Ends (t : Telling α) (P : α → Prop) (B : Crash → Prop) : Prop
  | ok {a} : t.result = .ok a → P a → Ends t P B
  | failure {f} : t.result = .error (.failure f) → f.IsConfiguration → Ends t P B
  | crash {c} : t.result = .error (.crash c) → B c → Ends t P B

theorem ends_pure {a : α} (h : P a) : Ends (pure a) P B := .ok rfl h

theorem ends_tell (e : Event) : Ends (tell e) (fun _ => True) B := .ok rfl trivial

theorem ends_fail {f : Failure} (h : f.IsConfiguration) : Ends (fail f : Telling α) P B :=
  .failure rfl h

theorem ends_crash {c : Crash} (h : B c) : Ends (crash c : Telling α) P B := .crash rfl h

theorem ends_ofCrash {r : Except Crash α} (hok : ∀ a, r = .ok a → P a) (herror : ∀ c, r = .error c → B c) :
    Ends (ofCrash r) P B := by
  cases r with
  | ok a => exact ends_pure (hok a rfl)
  | error c => exact ends_crash (herror c rfl)

theorem Ends.mono (h : Ends t P B) (hP : ∀ a, P a → Q a) (hB : ∀ c, B c → C c) : Ends t Q C := by
  cases h with
  | ok ht h => exact .ok ht (hP _ h)
  | failure ht h => exact .failure ht h
  | crash ht h => exact .crash ht (hB _ h)

theorem Ends.bind {f : α → Telling β} (h : Ends t P B)
    (hf : ∀ a, t.result = .ok a → P a → Ends (f a) R B) : Ends (t >>= f) R B := by
  cases h with
  | @ok a ht h =>
    have hresult : (t >>= f).result = (f a).result := by rw [bind_result, ht]; rfl
    cases hf a ht h with
    | ok hr h => exact .ok (hresult.trans hr) h
    | failure hr h => exact .failure (hresult.trans hr) h
    | crash hr h => exact .crash (hresult.trans hr) h
  | failure ht h => exact .failure (by rw [bind_result, ht]; rfl) h
  | crash ht h => exact .crash (by rw [bind_result, ht]; rfl) h

theorem Ends.of_ok {a : α} (h : Ends t P B) (ht : t.result = .ok a) : P a := by
  cases h with
  | ok hr h => exact Except.ok.inj (hr.symm.trans ht) ▸ h
  | failure hr _ => cases hr.symm.trans ht
  | crash hr _ => cases hr.symm.trans ht

end Telling

namespace Settings

open Disk Telling

variable {d : Disk} {r : Request} {s : Settings} {fields fs : Fields} {key : String} {v : Value}
  {es : List (Value × Value)} {q : Place} {file folder : Path} {c : Crash} {B : Crash → Prop}

/-! ## Keys -/

/-- A key that is no text. -/
def NoText (k : Value) : Prop :=
  ∀ t, k ≠ .text t

theorem unknownKeys_error (h : unknownKeys es = .error c) : c = .badKeys ∧ ∃ e ∈ es, NoText e.1 := by
  have hc : c = .badKeys := by
    unfold unknownKeys at h
    dsimp only at h
    split at h
    · cases h
    · exact (Except.error.inj h).symm
  refine ⟨hc, by_contra fun hno => ?_⟩
  -- where all keys are texts, as many texts are unknown as keys
  obtain ⟨ts, hts⟩ : es.map (·.1) ∈ Set.range (List.map Value.text) := by
    simp only [NoText] at hno
    push Not at hno
    rw [Set.range_list_map]
    simpa [eq_comm] using hno
  unfold unknownKeys at h
  simp [← hts, List.filter_map, List.filterMap_map, Function.comp_def] at h

theorem knownFields_ends (source : String) (es : List (Value × Value)) (f : Value → Value) :
    Ends (knownFields source (es.map fun e => (e.1, f e.2))) (fun _ => True)
      fun c => c = .badKeys ∧ ∃ e ∈ es, NoText e.1 := by
  unfold knownFields
  have hkeys : Ends (ofCrash (unknownKeys (es.map fun e => (e.1, f e.2)))) (fun _ => True)
      fun c => c = .badKeys ∧ ∃ e ∈ es, NoText e.1 := by
    refine ends_ofCrash (fun _ _ => trivial) fun c hc => ?_
    obtain ⟨hc, e, he, hno⟩ := unknownKeys_error hc
    obtain ⟨e', he', rfl⟩ := List.mem_map.1 he
    exact ⟨hc, e', he', hno⟩
  refine hkeys.bind fun unknown _ _ => ?_
  split
  · exact ends_pure trivial
  · exact ends_fail trivial

/-- Fields have texts for keys, so their names make no crash. -/
theorem knownFields_fields_ends (source : String) (fs : Fields) :
    Ends (knownFields source (fs.map fun f => (Value.text f.1, f.2))) (fun _ => True) B := by
  have h := knownFields_ends source (fs.map fun f => (Value.text f.1, f.2)) id
  rw [List.map_map] at h
  refine h.mono (fun _ h => h) ?_
  rintro c ⟨-, e, he, hno⟩
  obtain ⟨f, -, rfl⟩ := List.mem_map.1 he
  exact absurd rfl (hno f.1)

theorem fileLayers_ends (file : Path) (environment : String) (v : Value) :
    Ends (fileLayers file environment v) (fun _ => True) fun c => c = .badKeys
      ∧ ∃ es, v = .map es ∧ ((∃ e ∈ es, NoText e.1) ∨ ∃ sections own,
        sectionsIn? es = some sections ∧ sectionIn? es sections environment = some own
          ∧ ∃ e ∈ own, NoText e.1) := by
  unfold fileLayers
  split
  · exact ends_pure trivial
  · rename_i es
    split
    · exact ends_fail trivial
    · rename_i sections hsections
      have hrest := (knownFields_ends file.text (othersIn es)
        (unrolled (othersIn es) (othersIn es))).mono (C := fun c => c = .badKeys
          ∧ ∃ e ∈ es, NoText e.1) (fun _ h => h)
        fun c ⟨hc, e, he, hno⟩ => ⟨hc, e, List.mem_of_mem_filter he, hno⟩
      refine (hrest.mono (fun _ h => h) fun c ⟨hc, hno⟩ => ⟨hc, es, rfl, .inl hno⟩).bind
        fun rest _ _ => ?_
      split
      · exact ends_fail trivial
      · rename_i own hown
        exact ((knownFields_ends _ _ _).mono (fun _ h => h) fun c ⟨hc, hno⟩ =>
          ⟨hc, es, rfl, .inr ⟨sections, own, hsections, hown, hno⟩⟩).bind
            fun _ _ _ => ends_pure trivial
  · exact ends_fail trivial

/-! ## The settings file -/

/-- What a settings file can make loading crash with. -/
inductive FileSlip (d : Disk) (file : Path) (environment : String) : Crash → Prop
  | bytes {bs} : d.bytes file = .ok bs → String.fromUTF8? bs = none →
      FileSlip d file environment .undecodable
  /-- The reader of the format crashes. -/
  | reader {text c} : d.text file = .ok text → Yaml.read text = .error (.crash c) →
      FileSlip d file environment c
  | key {text es e} : d.text file = .ok text → Yaml.read text = .ok (.map es) →
      e ∈ es → NoText e.1 → FileSlip d file environment .badKeys
  | sectionKey {text es sections own e} : d.text file = .ok text → Yaml.read text = .ok (.map es) →
      sectionsIn? es = some sections → sectionIn? es sections environment = some own →
      e ∈ own → NoText e.1 → FileSlip d file environment .badKeys

theorem text_encoding (h : d.text file = .error .encoding) :
    ∃ bs, d.bytes file = .ok bs ∧ String.fromUTF8? bs = none := by
  unfold Disk.text at h
  split at h
  · rename_i bs hbs
    refine ⟨bs, hbs, ?_⟩
    unfold textOf at h
    split at h
    · cases h
    · assumption
  · cases h

theorem readFile_ends (d : Disk) (file : Path) (environment : String) :
    Ends (readFile d file environment) (fun _ => d.isFile file = true) (FileSlip d file environment) := by
  unfold readFile
  split
  · exact ends_fail trivial
  · rename_i hfile
    refine (ends_tell _).bind fun _ _ _ => ?_
    split
    · rename_i hbytes
      obtain ⟨bs, hbs, hnone⟩ := text_encoding hbytes
      exact ends_crash (.bytes hbs hnone)
    · exact ends_fail trivial
    · rename_i text htext
      split
      · exact ends_fail trivial
      · rename_i c hc
        exact ends_crash (.reader htext hc)
      · rename_i v hv
        refine (fileLayers_ends file environment v).mono (fun _ _ => by simpa using hfile) ?_
        rintro _ ⟨rfl, es, rfl, ⟨e, he, hno⟩ | ⟨sections, own, hs, ho, e, he, hno⟩⟩
        · exact .key htext hv he hno
        · exact .sectionKey htext hv hs ho he hno

theorem workingFolder_eq (ht : IsTree d) : workingFolder d = .ok ⟨.slash, d.here⟩ := by
  have hhere : Leads d (d.startOf ⟨.none, []⟩) [] 0 d.here := .here
  exact hhere.realPath ht

theorem exists_fileOf (ht : IsTree d) (r : Request) : ∃ file, fileOf d r = .ok file := by
  unfold fileOf
  split
  · exact ⟨_, rfl⟩
  · split
    · exact ⟨_, by rw [findFile, show d.realPath ⟨.none, []⟩ = _ from workingFolder_eq ht]; rfl⟩
    · exact ⟨_, rfl⟩

/-- A file is in a folder, with a real path. -/
theorem realPath_parent (ht : IsTree d) (h : d.isFile file = true) :
    ∃ q, d.realPath file.parent = .ok ⟨.slash, q⟩ ∧ d.node? q = some .folder := by
  obtain ⟨u, q, bytes, time, hq, -, hn⟩ := (isFile_iff ht).1 h
  obtain ⟨root, parts⟩ := file
  obtain rfl | ⟨names, name, rfl⟩ := List.eq_nil_or_concat' parts
  · cases hq
    simp [ht.startOf] at hn
  · obtain ⟨v, w, m, hv, hw, -⟩ := hq.split
    have hparent : Path.parent ⟨root, names ++ [name]⟩ = ⟨root, names⟩ := by simp [Path.parent]
    refine ⟨m, hparent ▸ Leads.realPath ht hv, ?_⟩
    cases hw with
    | step hp _ _ _ => exact hp
    | link hp _ _ _ => exact hp

theorem fileLayersOf_ends (ht : IsTree d) (r : Request) :
    Ends (fileLayersOf d r) (fun l => ∃ q, l.2.2 = ⟨.slash, q⟩ ∧ d.node? q = some .folder)
      fun c => ∃ file, fileOf d r = .ok (some file) ∧ FileSlip d file r.environment c := by
  obtain ⟨file, hfile⟩ := exists_fileOf ht r
  unfold fileLayersOf
  rw [hfile]
  cases file with
  | none =>
    rw [workingFolder_eq ht]
    exact ends_pure ⟨_, rfl, ht.here⟩
  | some file =>
    refine Ends.bind (P := fun f => f = some file) (ends_pure rfl) ?_
    rintro _ - rfl
    refine ((readFile_ends d file r.environment).mono (fun _ h => h) fun c h => ⟨file, rfl, h⟩).bind
      fun l _ hisFile => ?_
    obtain ⟨q, hq, hf⟩ := realPath_parent ht hisFile
    simp only [hq]
    exact ends_pure ⟨q, rfl, hf⟩

/-! ## Paths -/

/-- A value that no file can have as its path, or that is no path and that no message can show. -/
def Unplaced (v : Value) : Prop :=
  (∃ t, v = .text t ∧ '\x00' ∈ t.toList) ∨ v.isShowable = false

theorem realValue_ends_of_noText {P : Value → Prop} (h : NoText v) :
    Ends (realValue d folder v) P fun c => c = .badValue ∧ Unplaced v := by
  have hv : realValue d folder v = if v.isShowable then Telling.fail (.badPathValue v.shown)
      else Telling.crash .badValue := by
    unfold realValue
    split
    · exact absurd rfl (h _)
    · rfl
  rw [hv]
  split
  · exact ends_fail trivial
  · rename_i hshow
    exact ends_crash ⟨rfl, .inr (by simpa using hshow)⟩

theorem realValue_ends (ht : IsTree d) (hl : Unlooped d) (hq : d.node? q = some .folder) (v : Value) :
    Ends (realValue d ⟨.slash, q⟩ v) (fun w => ∃ p : Path, p.isAbsolute = true ∧ w = .text p.text)
      fun c => c = .badValue ∧ Unplaced v := by
  obtain ⟨t, rfl⟩ | hv := (em (∃ t, v = .text t)).imp_right not_exists.1
  · have hnames := (Leads.self ht hq (by simp)).possible ht
    have hparts : ∀ x ∈ (Path.join ⟨.slash, q⟩ (.ofString t)).parts, isImpossible x = true →
        '\x00' ∈ t.toList := by
      intro x hx hbad
      have hpart : x ∈ Path.partsOf t.toList := by
        unfold Path.join at hx
        split at hx
        · exact hx
        · exact (List.mem_append.1 hx).resolve_left fun h => by simp [hnames x h] at hbad
      exact (Path.isPart_of_mem_partsOf hpart).2 _ (by simpa [isImpossible] using hbad)
    unfold realValue
    refine Ends.bind (P := fun p => p.isAbsolute = true) (ends_ofCrash ?_ ?_)
      fun p _ hp => ends_pure ⟨p, hp, rfl⟩
    · intro p hp
      unfold realPath at hp
      split at hp
      · cases hp
      · dsimp only at hp
        split at hp
        · cases hp
        · cases hp; rfl
    · intro c hc
      by_cases hbad : (Path.join ⟨.slash, q⟩ (.ofString t)).parts.any isImpossible = true
      · rw [realPath, if_pos hbad] at hc
        obtain ⟨x, hx, hx'⟩ := List.any_eq_true.1 hbad
        exact ⟨(Except.error.inj hc).symm, .inl ⟨t, rfl, hparts x hx hx'⟩⟩
      · obtain ⟨u, m, hm⟩ := hl _ (Path.join ⟨.slash, q⟩ (.ofString t)).parts (ht.startOf _)
        rw [hm.realPath ht (by simpa using hbad)] at hc
        cases hc
  · exact realValue_ends_of_noText hv

/-- A field and what it becomes once paths are real. -/
def Placed (f g : String × Value) : Prop :=
  g.1 = f.1 ∧ if f.1 ∈ pathKeys then ∃ p : Path, p.isAbsolute = true ∧ g.2 = .text p.text else g.2 = f.2

theorem realFields_ends (ht : IsTree d) (hl : Unlooped d) (hq : d.node? q = some .folder)
    (fs : Fields) : Ends (realFields d ⟨.slash, q⟩ fs) (List.Forall₂ Placed fs)
      fun c => c = .badValue ∧ ∃ key v, (key, v) ∈ fs ∧ key ∈ pathKeys ∧ Unplaced v := by
  induction fs with
  | nil => exact ends_pure .nil
  | cons f fs ih =>
    obtain ⟨key, v⟩ := f
    have hrest : ∀ w, Placed (key, v) (key, w) →
        Ends (realFields d ⟨.slash, q⟩ fs >>= fun gs => pure ((key, w) :: gs))
          (List.Forall₂ Placed ((key, v) :: fs))
          fun c => c = .badValue ∧ ∃ k w, (k, w) ∈ (key, v) :: fs ∧ k ∈ pathKeys ∧ Unplaced w := by
      intro w hw
      refine (ih.mono (fun _ h => h) ?_).bind fun gs _ hgs => ends_pure (.cons hw hgs)
      rintro c ⟨hc, k, w, hm, hk, hw⟩
      exact ⟨hc, k, w, List.mem_cons_of_mem _ hm, hk, hw⟩
    unfold realFields
    dsimp only
    split
    · rename_i hkey
      refine ((realValue_ends ht hl hq v).mono (fun _ h => h) ?_).bind fun w _ hw =>
        hrest w ⟨rfl, by rwa [if_pos hkey]⟩
      rintro c ⟨hc, hv⟩
      exact ⟨hc, key, v, List.mem_cons_self, hkey, hv⟩
    · rename_i hkey
      exact hrest v ⟨rfl, by rw [if_neg hkey]⟩

theorem lookup?_cons (f : String × Value) (fs : Fields) (key : String) :
    lookup? (f :: fs) key = if f.1 = key then some f.2 else lookup? fs key := by
  by_cases h : f.1 = key <;> simp [lookup?, h]

theorem lookup?_placed (h : List.Forall₂ Placed fields fs) (hkey : key ∉ pathKeys) :
    lookup? fs key = lookup? fields key := by
  induction h with
  | nil => rfl
  | @cons f g fields fs hfg _ ih =>
    obtain ⟨hg, hv⟩ := hfg
    rw [lookup?_cons, lookup?_cons, ih, hg]
    split
    · rename_i he
      rw [if_neg (he ▸ hkey)] at hv
      rw [hv]
    · rfl

theorem path_of_lookup?_placed (h : List.Forall₂ Placed fields fs) (hkey : key ∈ pathKeys)
    (hv : lookup? fs key = some v) : ∃ p : Path, p.isAbsolute = true ∧ v = .text p.text := by
  induction h with
  | nil => cases hv
  | @cons f g fields fs hfg _ ih =>
    obtain ⟨hg, hw⟩ := hfg
    rw [lookup?_cons, hg] at hv
    split at hv
    · rename_i he
      rw [if_pos (he ▸ hkey)] at hw
      exact Option.some.inj hv ▸ hw
    · exact ih hv

theorem isAbsolute_ofString_text {p : Path} (h : p.isAbsolute = true) :
    (Path.ofString p.text).isAbsolute = true := by
  have hroot : ∃ cs, p.root.text.toList = '/' :: cs := by
    unfold Path.isAbsolute at h
    cases hr : p.root with
    | none => rw [hr] at h; cases h
    | slash => exact ⟨[], rfl⟩
    | twoSlashes => exact ⟨['/'], rfl⟩
  obtain ⟨cs, hcs⟩ : ∃ cs, p.text.toList = '/' :: cs := by
    obtain ⟨cs, hcs⟩ := hroot
    have hne : ¬ (p.root = .none ∧ p.parts = []) := by
      rintro ⟨hr, -⟩
      simp [Path.isAbsolute, hr] at h
    rw [Path.text, if_neg hne, String.toList_append, hcs]
    exact ⟨_, rfl⟩
  unfold Path.ofString Path.isAbsolute
  rw [hcs]
  unfold Root.ofText
  split
  · rfl
  · split <;> rfl
  · rfl
  · rename_i hno
    exact absurd rfl (hno cs)

/-! ## Layers -/

theorem lookup?_filterMap (value : String → Option Value) (ks : List String) (key : String) :
    lookup? (ks.filterMap fun k => (value k).map fun v => (k, v)) key
      = if key ∈ ks then value key else none := by
  induction ks with
  | nil => rfl
  | cons k ks ih =>
    rw [List.filterMap_cons]
    cases hv : value k with
    | none =>
      simp only [Option.map_none, ih, List.mem_cons]
      by_cases hk : key = k
      · subst hk; simp [hv]
      · simp [hk]
    | some v =>
      simp only [Option.map_some, lookup?_cons, ih, List.mem_cons]
      by_cases hk : k = key
      · subst hk; simp [hv]
      · simp [hk, Ne.symm hk]

theorem lookup?_fieldsIn (layers : List Fields) (hkey : key ∈ keys) :
    lookup? (fieldsIn layers) key = valueIn? layers key := by
  rw [fieldsIn, lookup?_filterMap, if_pos hkey]

theorem mem_fieldsIn {layers : List Fields} (h : (key, v) ∈ fieldsIn layers) :
    valueIn? layers key = some v := by
  obtain ⟨k, -, hk⟩ := List.mem_filterMap.1 h
  obtain ⟨w, hw, he⟩ := Option.map_eq_some_iff.1 hk
  cases he
  exact hw

theorem valueIn?_cons (l : Fields) (ls : List Fields) (key : String) :
    valueIn? (l :: ls) key = (lookup? l key).or (valueIn? ls key) := by
  unfold valueIn?
  rw [List.findSome?_cons]
  cases lookup? l key <;> rfl

theorem path_of_layers {given lower gs ls : Fields} {p : Path} (hgiven : List.Forall₂ Placed gs given)
    (hlower : List.Forall₂ Placed ls lower) (hkeys : key ∈ keys) (hkey : key ∈ pathKeys)
    (h : required (fieldsIn [given, lower]) key readPath = .ok p) : p.isAbsolute = true := by
  obtain ⟨v, hv, hp⟩ := required_eq_ok h
  obtain ⟨t, rfl, rfl⟩ := readPath_eq_ok hp
  rw [lookup?_fieldsIn _ hkeys, valueIn?_cons, valueIn?_cons] at hv
  obtain ⟨real, habs, he⟩ : ∃ p : Path, p.isAbsolute = true ∧ Value.text t = .text p.text := by
    cases hg : lookup? given key with
    | some v =>
      rw [hg] at hv
      exact path_of_lookup?_placed hgiven hkey (hg.trans hv)
    | none =>
      rw [hg, Option.none_or, show valueIn? [] key = none from rfl, Option.or_none] at hv
      exact path_of_lookup?_placed hlower hkey hv
  cases he
  exact isAbsolute_ofString_text habs

/-- Paths made real do not change the value of another setting. -/
theorem valueIn?_placed {given lower gs : Fields} {ls : List Fields}
    (hgiven : List.Forall₂ Placed gs given) (hlower : List.Forall₂ Placed (fieldsIn ls) lower)
    (hkeys : key ∈ keys) (hkey : key ∉ pathKeys) :
    lookup? (fieldsIn [given, lower]) key = valueIn? (gs :: ls) key := by
  rw [lookup?_fieldsIn _ hkeys, valueIn?_cons, valueIn?_cons, valueIn?_cons,
    lookup?_placed hgiven hkey, lookup?_placed hlower hkey, lookup?_fieldsIn _ hkeys,
    show valueIn? [] key = none from rfl, Option.or_none]

/-- Only a count in a pattern of the layers makes the reading of their values crash. -/
theorem read_ends {given lower gs : Fields} {ls : List Fields} (hgiven : List.Forall₂ Placed gs given)
    (hlower : List.Forall₂ Placed (fieldsIn ls) lower) :
    Ends (ofCrash (read (fieldsIn [given, lower]))) (fun res => read (fieldsIn [given, lower]) = .ok res)
      fun c => c = .largeCount ∧ ∃ key ∈ ["include_table_patterns", "exclude_table_patterns"], ∃ v ps,
        valueIn? (gs :: ls) key = some v ∧ readTexts [.key key] v = .ok ps ∧ ∃ p ∈ ps, CountsTooFar p := by
  refine ends_ofCrash (fun _ h => h) fun c hc => ?_
  obtain ⟨rfl, key, hkey, v, ps, hv, hps, hfar⟩ := read_error hc
  have hkeys : key ∈ keys ∧ key ∉ pathKeys :=
    (by decide : ∀ k ∈ ["include_table_patterns", "exclude_table_patterns"],
      k ∈ keys ∧ k ∉ pathKeys) key hkey
  rw [valueIn?_placed hgiven hlower hkeys.1 hkeys.2] at hv
  exact ⟨rfl, key, hkey, v, ps, hv, hps, hfar⟩

/-! ## Loading -/

/-- What a request can make loading crash with. -/
inductive Slip (r : Request) (d : Disk) : Crash → Prop
  | file {file : Path} {c : Crash} : fileOf d r = .ok (some file) →
      FileSlip d file r.environment c → Slip r d c
  | given {key : String} {v : Value} : (key, v) ∈ r.overrides → key ∈ pathKeys → Unplaced v →
      Slip r d .badValue
  | path {own rest : Fields} {folder : Path} {key : String} {v : Value} :
      (fileLayersOf d r).result = .ok (own, rest, folder) → key ∈ pathKeys →
      valueIn? [own, rest, preset] key = some v → Unplaced v → Slip r d .badValue
  | count {own rest : Fields} {folder : Path} {key p : String} {v : Value} {ps : List String} :
      (fileLayersOf d r).result = .ok (own, rest, folder) →
      key ∈ ["include_table_patterns", "exclude_table_patterns"] →
      valueIn? [r.overrides.filter isGiven, own, rest, preset] key = some v →
      readTexts [.key key] v = .ok ps → p ∈ ps → CountsTooFar p → Slip r d .largeCount

/-- Loading ends with valid settings whose paths are absolute, or with a failure that tells what is
wrong with the configuration, unless a slip of the request or its file makes it crash. -/
theorem load_ends (r : Request) (ht : IsTree d) (hl : Unlooped d) :
    Ends (load r d)
      (fun s => s.Valid ∧ s.schemaFolder.isAbsolute = true ∧ s.outputFile.isAbsolute = true)
      (Slip r d) := by
  unfold load
  split
  · exact ends_fail trivial
  refine ((fileLayersOf_ends ht r).mono (fun _ h => h) fun c ⟨file, hfile, hc⟩ => .file hfile hc).bind ?_
  rintro ⟨own, rest, folder⟩ hlayers ⟨q, rfl, hq⟩
  refine ((realFields_ends ht hl hq (fieldsIn [own, rest, preset])).mono (fun _ h => h) ?_).bind ?_
  · rintro _ ⟨rfl, key, v, hm, hkey, hv⟩
    exact .path hlayers hkey (mem_fieldsIn hm) hv
  intro lower _ hlower
  rw [workingFolder_eq ht]
  refine Ends.bind (P := fun p => p = ⟨.slash, d.here⟩) (ends_pure rfl) ?_
  rintro _ - rfl
  refine ((realFields_ends ht hl ht.here (r.overrides.filter isGiven)).mono (fun _ h => h) ?_).bind ?_
  · rintro _ ⟨rfl, key, v, hm, hkey, hv⟩
    exact .given (List.mem_of_mem_filter hm) hkey hv
  intro given _ hgiven
  refine (knownFields_fields_ends "overrides" given).bind fun _ _ _ => ?_
  refine ((read_ends hgiven hlower).mono (fun _ h => h) ?_).bind fun res _ hres => ?_
  · rintro _ ⟨rfl, key, hkey, v, ps, hv, hps, p, hp, hfar⟩
    exact .count hlayers hkey hv hps hp hfar
  cases res with
  | error ds => exact ends_fail trivial
  | ok s =>
    have hread := readFrom_of_read hres
    refine (ends_tell _).bind fun _ _ _ => ends_pure ⟨hread.valid, ?_, ?_⟩
    · exact path_of_layers hgiven hlower (by decide) (by decide) hread.schemaFolder
    · exact path_of_layers hgiven hlower (by decide) (by decide) hread.outputFile

/-! ## Settings files of a few bytes -/

def settingsDisk (bytes : ByteArray) : Disk :=
  ⟨[(["ws"], .folder), (["ws", "schemagen.yml"], .file bytes 0)], ["ws"], 0⟩

def fileRequest (overrides : Fields) : Request :=
  ⟨"default", some ⟨.slash, ["ws", "schemagen.yml"]⟩, overrides, true⟩

theorem settingsDisk_tree (bytes : ByteArray) :
    IsTree (settingsDisk bytes) ∧ Unlooped (settingsDisk bytes) := by
  refine ⟨⟨by simp [settingsDisk], ?_, ?_, rfl⟩, unlooped_of_no_link rfl⟩
  · simp only [settingsDisk, List.forall_mem_cons]
    exact ⟨⟨nofun, rfl⟩, ⟨nofun, rfl⟩, nofun⟩
  · simp only [settingsDisk, List.forall_mem_cons]
    exact ⟨⟨by decide, nofun⟩, ⟨by decide, by decide, nofun⟩, nofun⟩

/-- A file that names the aggregate. -/
theorem load_ends_named :
    ∃ s, (load (fileRequest []) (settingsDisk "aggregate_name: db\n".toUTF8)).result = .ok s
      ∧ s.Valid ∧ s.schemaFolder.isAbsolute = true ∧ s.outputFile.isAbsolute = true := by
  obtain ⟨ht, hl⟩ := settingsDisk_tree "aggregate_name: db\n".toUTF8
  have hok : (load (fileRequest []) (settingsDisk "aggregate_name: db\n".toUTF8)).result.toOption.isSome
      = true := by decide +kernel
  have hs := eq_ok_of_toOption (Option.some_get hok).symm
  exact ⟨_, hs, (load_ends (fileRequest []) ht hl).of_ok hs⟩

/-- Each slip makes loading crash. -/
theorem load_crashes :
    (load (fileRequest []) (settingsDisk ⟨#[0xff]⟩)).result = .error (.crash .undecodable)
    ∧ (load (fileRequest []) (settingsDisk "1: x\n".toUTF8)).result = .error (.crash .badKeys)
    ∧ (load (fileRequest []) (settingsDisk "environments: \x7bdefault: \x7b1: x\x7d\x7d\n".toUTF8)).result
      = .error (.crash .badKeys)
    ∧ (load (fileRequest []) (settingsDisk "schema_dir: \"a\\0\"\n".toUTF8)).result
      = .error (.crash .badValue)
    ∧ (load (fileRequest [("schema_dir", .text "a\x00")]) (settingsDisk "".toUTF8)).result
      = .error (.crash .badValue)
    ∧ (load (fileRequest [("schema_dir", .int (10 ^ 4300))]) (settingsDisk "".toUTF8)).result
      = .error (.crash .badValue)
    ∧ (load (fileRequest []) (settingsDisk
        "include_table_patterns: ['a\x7b99999999999\x7d']\n".toUTF8)).result
      = .error (.crash .largeCount) := by
  decide +kernel

end Settings

end TableRoster
