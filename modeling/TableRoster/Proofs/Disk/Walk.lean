import TableRoster.Proofs.Disk.Leads

/-! # Walks and what names lead to

A walk arrives at something exactly if the names lead there over few enough links. A walk that does
not follow a last link arrives one step behind what the other names lead to. -/

namespace TableRoster.Disk

variable {d : Disk} {p q r : Place} {names more rest : List String} {name : String} {n : Node}
  {u b : Nat} {follow : Bool}

/-! ## Stretches -/

theorem stretch_cons (ht : IsTree d) (hp : d.node? p = some .folder) :
    d.stretch follow p (name :: rest) =
      match d.node? (stepTo p name) with
      | none => .ended (if rest = [] then .ok ⟨stepTo p name, none⟩ else .error .missing)
      | some (.link t) =>
        if rest = [] ∧ !follow then .ended (.ok ⟨stepTo p name, some (.link t)⟩)
        else .atLink (targetStart p t) (targetNames t ++ rest)
      | some _ => d.stretch follow (stepTo p name) rest := by
  obtain ⟨hn, hf⟩ | ⟨hs, hd, hu⟩ := ht.stepTo_cases hp name
  · rw [hf]
    by_cases hd : name = "."
    · subst hd; simp [stretch, hp]
    · by_cases hu : name = ".."
      · subst hu; simp [stretch, hp]
      · rw [stepTo, if_neg hd, if_neg hu] at hf
        exact absurd (ht.isName_of_snoc hf) hn
  · rw [hs]
    cases hn : d.node? (p ++ [name]) with
    | none => simp [stretch, hp, hd, hu, hn]
    | some n => cases n <;> simp [stretch, hp, hd, hu, hn]

/-- A stretch goes on from folders only. -/
theorem folder_of_stretch {s : Stretch} (h : d.stretch follow p (name :: rest) = s)
    (hs : ∀ f, s ≠ .ended (.error f)) : d.node? p = some .folder := by
  unfold stretch at h
  split at h
  · exact absurd h.symm (hs _)
  · exact absurd h.symm (hs _)
  · exact absurd h.symm (hs _)
  · assumption

/-- A stretch that ends at something followed no link. -/
theorem leads_of_stretch (ht : IsTree d)
    (h : d.stretch true p names = .ended (.ok ⟨q, some n⟩)) :
    Leads d p names 0 q ∧ d.node? q = some n := by
  induction names generalizing p with
  | nil =>
    simp only [stretch, Stretch.ended.injEq, Except.ok.injEq, Arrival.mk.injEq] at h
    obtain ⟨rfl, h⟩ := h
    exact ⟨.here, h⟩
  | cons name rest ih =>
    have hp := folder_of_stretch h (by simp)
    rw [stretch_cons ht hp] at h
    split at h
    · split at h <;> simp at h
    · simp at h
    · rename_i hl hs
      obtain ⟨hq, hn⟩ := ih h
      exact ⟨.step hp hs hl hq, hn⟩

/-- A stretch that ends at a link goes on as the link's target does. -/
theorem leads_of_stretch_atLink (ht : IsTree d) {s : Place} {ns : List String}
    (h : d.stretch follow p names = .atLink s ns) (hq : Leads d s ns u q) :
    Leads d p names (u + 1) q := by
  induction names generalizing p with
  | nil => simp [stretch] at h
  | cons name rest ih =>
    have hp := folder_of_stretch h (by simp)
    rw [stretch_cons ht hp] at h
    split at h
    · split at h <;> cases h
    · rename_i t hs
      split at h
      · cases h
      · cases h
        obtain ⟨v, w, m, hv, hw, rfl⟩ := hq.split
        exact .link hp hs hv hw
    · rename_i hl hs
      exact .step hp hs hl (ih h)

/-! ## Walks -/

/-- A walk goes along names as they lead, and pays for the links. -/
theorem Leads.walkFrom (ht : IsTree d) (h : Leads d p names u q) (hm : follow = true ∨ more ≠ [])
    (b : Nat) : d.walkFrom follow (u + b) p (names ++ more) = d.walkFrom follow b q more := by
  induction h generalizing more b with
  | here => simp
  | @step p name n rest u q hp hn hl _ ih =>
    have hs : d.stretch follow p (name :: (rest ++ more))
        = d.stretch follow (stepTo p name) (rest ++ more) := by
      rw [stretch_cons ht hp, hn]
      cases n with
      | link t => exact absurd rfl (hl t)
      | _ => rfl
    rw [← ih hm b, List.cons_append]
    cases u + b with
    | zero => simp only [Disk.walkFrom, hs]
    | succ k => simp only [Disk.walkFrom, hs]
  | @link p name t u m rest v q hp hn _ _ ih₁ ih₂ =>
    have hr : ¬ (rest ++ more = [] ∧ !follow) := by
      rintro ⟨he, hf⟩
      obtain ⟨-, rfl⟩ := List.append_eq_nil_iff.1 he
      simp_all
    have hm' : follow = true ∨ rest ++ more ≠ [] := by
      by_cases hf : follow = true
      · exact .inl hf
      · exact .inr fun he => hr ⟨he, by simpa using hf⟩
    have hs : d.stretch follow p (name :: (rest ++ more))
        = .atLink (targetStart p t) (targetNames t ++ (rest ++ more)) := by
      rw [stretch_cons ht hp, hn]
      simp only [hr, ↓reduceIte]
    rw [← ih₂ hm b, ← ih₁ hm' (v + b), List.cons_append,
      show u + v + 1 + b = u + (v + b) + 1 by omega]
    simp only [Disk.walkFrom, hs]

theorem leads_of_walkFrom (ht : IsTree d)
    (h : d.walkFrom true b p names = .ok ⟨q, some n⟩) :
    ∃ u, Leads d p names u q ∧ u ≤ b ∧ d.node? q = some n := by
  induction b generalizing p names with
  | zero =>
    simp only [walkFrom] at h
    split at h
    · rename_i hs
      obtain ⟨hq, hn⟩ := leads_of_stretch ht (h ▸ hs)
      exact ⟨0, hq, by omega, hn⟩
    · cases h
  | succ b ih =>
    simp only [walkFrom] at h
    split at h
    · rename_i hs
      obtain ⟨hq, hn⟩ := leads_of_stretch ht (h ▸ hs)
      exact ⟨0, hq, by omega, hn⟩
    · rename_i hs
      obtain ⟨u, hq, hu, hn⟩ := ih h
      exact ⟨u + 1, leads_of_stretch_atLink ht hs hq, by omega, hn⟩

/-- A walk arrives at something exactly if the names lead there. -/
theorem walkFrom_eq_ok_iff (ht : IsTree d) : d.walkFrom true b p names = .ok ⟨q, some n⟩ ↔
    ∃ u, Leads d p names u q ∧ u ≤ b ∧ d.node? q = some n := by
  refine ⟨leads_of_walkFrom ht, fun ⟨u, hq, hu, hn⟩ => ?_⟩
  have hm : true = true ∨ ([] : List String) ≠ [] := .inl rfl
  have := hq.walkFrom ht hm (b - u)
  rw [List.append_nil, show u + (b - u) = b by omega] at this
  rw [this]
  cases b - u <;> simp [walkFrom, stretch, hn]

/-! ## Walks that do not follow a last link -/

theorem leads_of_stretch_snoc (ht : IsTree d) {a : Arrival}
    (h : d.stretch false p (names ++ [name]) = .ended (.ok a)) :
    ∃ q, Leads d p names 0 q ∧ d.node? q = some .folder ∧ a = ⟨stepTo q name, d.node? (stepTo q name)⟩ := by
  induction names generalizing p with
  | nil =>
    have hp := folder_of_stretch h (by simp)
    refine ⟨p, .here, hp, ?_⟩
    rw [List.nil_append, stretch_cons ht hp] at h
    split at h
    · rename_i hs
      simpa [hs, eq_comm] using h
    · rename_i hs
      simpa [hs, eq_comm] using h
    · simpa [stretch, eq_comm] using h
  | cons x rest ih =>
    have hp := folder_of_stretch h (by simp)
    rw [List.cons_append, stretch_cons ht hp] at h
    split at h
    · simp at h
    · simp at h
    · rename_i hl hs
      obtain ⟨q, hq, hf, ha⟩ := ih h
      exact ⟨q, .step hp hs hl hq, hf, ha⟩

theorem leads_of_stretch_atLink_snoc (ht : IsTree d) {s : Place} {ns : List String}
    (h : d.stretch false p (names ++ [name]) = .atLink s ns) :
    ∃ ns', ns = ns' ++ [name] ∧ ∀ {u q}, Leads d s ns' u q → Leads d p names (u + 1) q := by
  induction names generalizing p with
  | nil =>
    have hp := folder_of_stretch h (by simp)
    rw [List.nil_append, stretch_cons ht hp] at h
    split at h <;> simp [stretch] at h
  | cons x rest ih =>
    have hp := folder_of_stretch h (by simp)
    rw [List.cons_append, stretch_cons ht hp] at h
    split at h
    · simp at h
    · rename_i t hs
      simp only [List.append_eq_nil_iff, List.cons_ne_self, and_false, false_and, ↓reduceIte,
        Stretch.atLink.injEq] at h
      obtain ⟨rfl, rfl⟩ := h
      refine ⟨targetNames t ++ rest, by simp, fun hq => ?_⟩
      obtain ⟨v, w, m, hv, hw, rfl⟩ := hq.split
      exact .link hp hs hv hw
    · rename_i hl hs
      obtain ⟨ns', rfl, hq⟩ := ih h
      exact ⟨ns', rfl, fun h => .step hp hs hl (hq h)⟩

/-- A walk that does not follow a last link arrives one step behind what the other names lead to. -/
theorem walkFrom_snoc_eq_ok_iff (ht : IsTree d) {a : Arrival} :
    d.walkFrom false b p (names ++ [name]) = .ok a ↔
      ∃ u q, Leads d p names u q ∧ u ≤ b ∧ d.node? q = some .folder
        ∧ a = ⟨stepTo q name, d.node? (stepTo q name)⟩ := by
  constructor
  · intro h
    induction b generalizing p names with
    | zero =>
      simp only [walkFrom] at h
      split at h
      · rename_i hs
        obtain ⟨q, hq, hf, ha⟩ := leads_of_stretch_snoc ht (h ▸ hs)
        exact ⟨0, q, hq, by omega, hf, ha⟩
      · cases h
    | succ b ih =>
      simp only [walkFrom] at h
      split at h
      · rename_i hs
        obtain ⟨q, hq, hf, ha⟩ := leads_of_stretch_snoc ht (h ▸ hs)
        exact ⟨0, q, hq, by omega, hf, ha⟩
      · rename_i hs
        obtain ⟨ns', rfl, hl⟩ := leads_of_stretch_atLink_snoc ht hs
        obtain ⟨u, q, hq, hu, hf, ha⟩ := ih h
        exact ⟨u + 1, q, hl hq, by omega, hf, ha⟩
  · rintro ⟨u, q, hq, hu, hf, rfl⟩
    have hm : false = true ∨ [name] ≠ [] := .inr (by simp)
    have := hq.walkFrom ht hm (b - u)
    rw [show u + (b - u) = b by omega] at this
    rw [this]
    have hs : d.stretch false q [name] = .ended (.ok ⟨stepTo q name, d.node? (stepTo q name)⟩) := by
      rw [stretch_cons ht hf]
      split <;> simp_all [stretch]
    cases b - u <;> simp [walkFrom, hs]

/-! ## Paths -/

variable {path : Path}

theorem stat_eq_ok_iff (ht : IsTree d) : d.stat path = .ok (q, n) ↔
    ∃ u, Leads d (d.startOf path) path.parts u q ∧ u ≤ linkLimit ∧ d.node? q = some n := by
  rw [← walkFrom_eq_ok_iff ht]
  unfold stat walk
  split <;> simp_all

theorem isThere_iff (ht : IsTree d) : d.isThere path = true ↔
    ∃ u q n, Leads d (d.startOf path) path.parts u q ∧ u ≤ linkLimit ∧ d.node? q = some n := by
  have : d.isThere path = true ↔ ∃ q n, d.stat path = .ok (q, n) := by
    unfold isThere
    cases d.stat path with
    | ok a => exact ⟨fun _ => ⟨a.1, a.2, rfl⟩, fun _ => rfl⟩
    | error f => simp
  simp only [this, stat_eq_ok_iff ht]
  constructor
  · rintro ⟨q, n, u, h⟩; exact ⟨u, q, n, h⟩
  · rintro ⟨u, q, n, h⟩; exact ⟨q, n, u, h⟩

theorem isFolder_iff (ht : IsTree d) : d.isFolder path = true ↔
    ∃ u q, Leads d (d.startOf path) path.parts u q ∧ u ≤ linkLimit ∧ d.node? q = some .folder := by
  have : d.isFolder path = true ↔ ∃ q, d.stat path = .ok (q, .folder) := by
    unfold isFolder
    split <;> simp_all
  simp only [this, stat_eq_ok_iff ht]
  exact exists_comm

theorem isFile_iff (ht : IsTree d) : d.isFile path = true ↔
    ∃ u q bytes time, Leads d (d.startOf path) path.parts u q ∧ u ≤ linkLimit
      ∧ d.node? q = some (.file bytes time) := by
  have : d.isFile path = true ↔ ∃ q bytes time, d.stat path = .ok (q, .file bytes time) := by
    unfold isFile
    split <;> simp_all
  simp only [this, stat_eq_ok_iff ht]
  constructor
  · rintro ⟨q, bytes, time, u, h⟩; exact ⟨u, q, bytes, time, h⟩
  · rintro ⟨u, q, bytes, time, h⟩; exact ⟨q, bytes, time, u, h⟩

theorem walk_snoc_eq_ok_iff (ht : IsTree d) {root : Root} {a : Arrival} :
    d.walk false ⟨root, names ++ [name]⟩ = .ok a ↔
      ∃ u q, Leads d (d.startOf ⟨root, names⟩) names u q ∧ u ≤ linkLimit
        ∧ d.node? q = some .folder ∧ a = ⟨stepTo q name, d.node? (stepTo q name)⟩ :=
  walkFrom_snoc_eq_ok_iff ht

/-- What a path leads to is there for a walk that does not follow a last link. -/
theorem walk_false_of_stat (ht : IsTree d) (h : d.stat path = .ok (q, n)) :
    ∃ r m, d.walk false path = .ok ⟨r, some m⟩ := by
  obtain ⟨root, parts⟩ := path
  obtain ⟨u, hq, hu, hn⟩ := (stat_eq_ok_iff ht).1 h
  obtain rfl | ⟨names, name, rfl⟩ := List.eq_nil_or_concat' parts
  · cases hq
    exact ⟨d.startOf ⟨root, []⟩, n, by simp [walk, walkFrom, stretch, linkLimit, hn]⟩
  · obtain ⟨v, w, m, hv, hw, rfl⟩ := hq.split
    cases hw with
    | step hp hs _ _ =>
      exact ⟨_, _, (walk_snoc_eq_ok_iff ht).2 ⟨v, m, hv, by omega, hp, by rw [hs]⟩⟩
    | link hp hs _ _ =>
      exact ⟨_, _, (walk_snoc_eq_ok_iff ht).2 ⟨v, m, hv, by omega, hp, by rw [hs]⟩⟩

end TableRoster.Disk
